import DubEcosystem.ChatDirectMessages

/-!
# chat-service: direct messages are kept to their participants

Each operation on channels and members is followed through what it has read and drawn, and
the store keeps the direct messages to those they were created for.  A post of the system
that dies, or is overtaken, between its two writes leaves a direct message without members,
in which the next one is stored.
-/

namespace DubEcosystem.Chat

open Interleaving PortPrograms List KeyedTable Function Option Except
open TaskService (JsonField)
open Relation

/-- The calls that change no channel, message or membership, and draw no channel. -/
def Call.IsSteady : Call → Prop
  | .db (.updateMember _) => True
  | .newMessageId => True
  | .newSectionId => True
  | request => request.IsRead

inductive DmPhase.Leads :
    DmPhase → (request : Call) → Except ChatError (Call.Result request) → DmPhase → Prop
  | steady {phase request answer} (isSteady : request.IsSteady) : Leads phase request answer phase
  | undrawn {phase thrown} : Leads phase .newChannelId (.error thrown) phase
  | sees {id row} : Leads .calm (.db (.selectChannel id)) (.ok (some row)) (.seen id row)
  | updates {id row next version answer} (sameId : next.id = row.id)
      (isPrivate : row.type = .dm → next.visibility = row.visibility) :
      Leads (.seen id row) (.db (.updateChannel next version)) answer (.seen id row)
  | joins {id row member answer} (notDm : row.type ≠ .dm) (isHere : member.channelId = id) :
      Leads (.seen id row) (.db (.insertMember member)) answer (.seen id row)
  | leaves {id row userId answer} (notDm : row.type ≠ .dm) :
      Leads (.seen id row) (.db (.deleteMember id userId)) answer (.seen id row)
  | finds {parties row} :
      Leads (.asks parties) (.db (.selectChannelByDmKey (dmKey parties))) (.ok (some row))
        (.found parties row.id)
  | compares {parties id rows} : Leads (.found parties id) (.db (.selectMembers id)) (.ok rows)
        (.matched id (rows.map MemberRow.userId))
  | draws {id} : Leads .calm .newChannelId (.ok id) (.drawn none id)
  | drawsDm {parties id} (sized : Sized parties) :
      Leads (.asks parties) .newChannelId (.ok id) (.drawn (some parties) id)
  | creates {id row members answer} (isRow : row.id = id)
      (ofRow : ∀ member ∈ members, member.channelId = row.id)
      (notDm : row.type ≠ .dm ∧ row.dmKey = none) :
      Leads (.drawn none id) (.db (.insertChannelWithMembers row members)) answer .calm
  | createsDm {parties id row members} (isRow : row.id = id)
      (ofRow : ∀ member ∈ members, member.channelId = row.id)
      (isDm : row.type = .dm ∧ row.visibility = .isPrivate ∧
        row.dmKey = some (dmKey parties) ∧ members.map MemberRow.userId = parties) :
      Leads (.drawn (some parties) id) (.db (.insertChannelWithMembers row members)) (.ok true)
        (.matched id parties)
  | losesDm {parties id row members answer} (isRow : row.id = id)
      (ofRow : ∀ member ∈ members, member.channelId = row.id) (lost : answer ≠ .ok true) :
      Leads (.drawn (some parties) id) (.db (.insertChannelWithMembers row members)) answer
        (.asks parties)
  | locates {target row} :
      Leads (.targets target) (.db (.selectChannelByDmKey (dmKey [target]))) (.ok (some row))
        (.posting target row.id)
  | drawsFor {target id} : Leads (.targets target) .newChannelId (.ok id) (.drawnFor target id)
  | createsFor {target id row result} (isRow : row.id = id)
      (isDm : row.type = .dm ∧ row.visibility = .isPrivate ∧
        row.dmKey = some (dmKey [target]) ∧ row.createdBy = target) :
      Leads (.drawnFor target id) (.db (.insertChannel row)) (.ok result) (.posting target id)
  | losesFor {target id row thrown} :
      Leads (.drawnFor target id) (.db (.insertChannel row)) (.error thrown) (.targets target)
  | joinsOwn {target id member answer} (isHere : member.channelId = id ∧ member.userId = target) :
      Leads (.posting target id) (.db (.insertMember member)) answer (.posting target id)
  | posts {target id row answer} (isHere : row.channelId = id) :
      Leads (.posting target id) (.db (.insertMessage row)) answer (.posting target id)
  | postsTo {row answer} : Leads .calm (.db (.insertMessage row)) answer .calm

/-- An operation may end in any phase. -/
def dmProtocol : Protocol chatSignature DmPhase where
  possible _ _ := True
  leads := DmPhase.Leads
  final _ := True

variable {request : Call}

theorem DmPhase.Leads.target {phase after : DmPhase}
    {answer : Except ChatError (Call.Result request)} (leads : phase.Leads request answer after) :
    after.target = phase.target := by
  cases leads <;> rfl

def Operation.firstPhase (op : Operation) : DmPhase :=
  match op.parties, op.target with
  | some parties, _ => .asks parties
  | none, some target => .targets target
  | none, none => .calm

variable {α β : Type} {phase : DmPhase}

abbrev DmFollows {α : Type} (phase : DmPhase) (action : ChatM α) : Prop :=
  Follows dmProtocol phase action fun _ _ => True

theorem Call.IsRead.isSteady (request : Call) (isRead : request.IsRead) : request.IsSteady := by
  cases request with
  | db statement => cases statement <;> first | exact isRead | exact isRead.elim
  | newMessageId | newSectionId => exact isRead.elim
  | _ => exact isRead

variable {action : ChatM α}

theorem stays_steady (issues : Issues Call.IsSteady action) :
    Follows dmProtocol phase action fun _ after => after = phase :=
  follows_of_keeps issues fun _ _ isSteady => .steady isSteady

theorem dmFollows_bind {continuation : α → ChatM β}
    {post : Except ChatError β → DmPhase → Prop} (issues : Issues Call.IsSteady action)
    (throws : ∀ thrown, post (.error thrown) phase)
    (rest : ∀ value, Follows dmProtocol phase (continuation value) post) :
    Follows dmProtocol phase (action >>= continuation) post := by
  apply follows_bind
  apply (stays_steady issues).mono
  rintro (thrown | value) after rfl
  · exact throws thrown
  · exact rest value

variable {continuation : Call.Result request → ChatM α}

theorem dmFollows_ask {post : Except ChatError α → DmPhase → Prop} (isSteady : request.IsSteady)
    (throws : ∀ thrown, post (.error thrown) phase)
    (rest : ∀ result, Follows dmProtocol phase (continuation result) post) :
    Follows dmProtocol phase (ask request >>= continuation) post := by
  apply follows_port_bind
  · exact fun result _ => ⟨phase, .steady isSteady, rest result⟩
  · exact fun thrown _ => ⟨phase, .steady isSteady, throws thrown⟩

theorem dmFollows_read
    (isSteady : request.IsSteady) (rest : ∀ result, DmFollows phase (continuation result)) :
    DmFollows phase (ask request >>= continuation) :=
  dmFollows_ask isSteady (fun _ => trivial) rest

theorem dmFollows_of_issues (issues : Issues Call.IsSteady action) :
    DmFollows phase action := by
  apply (stays_steady issues).mono
  exact fun _ _ _ => trivial

variable {userId : String}

theorem loadReadable_follows {id : String} : Follows dmProtocol .calm (loadReadable id userId) fun
      | .ok (channel, _), after => after = .seen id channel
      | .error _, _ => True := by
  apply follows_port_bind
  · rintro (_ | channel) -
    · exact ⟨.calm, .steady trivial, follows_throw trivial⟩
    · refine ⟨.seen id channel, .sees, ?_⟩
      refine dmFollows_ask (by trivial) (fun _ => trivial) fun membership => ?_
      split
      · exact follows_throw trivial
      · exact follows_pure rfl
  · exact fun thrown _ => ⟨.calm, .steady trivial, trivial⟩

theorem updateChannel_follows (userId id : String) (body : UpdateChannelRequest) :
    DmFollows .calm (updateChannel userId id body) := by
  apply dmFollows_bind issues_requireVersion fun _ => trivial
  intro version
  apply follows_bind
  apply loadReadable_follows.mono
  rintro (thrown | ⟨channel, membership⟩) after seen
  · trivial
  obtain rfl : after = .seen id channel := seen
  apply dmFollows_bind (issues_isChannelAdmin Call.IsRead.isSteady) fun _ => trivial
  intro isAdmin
  split
  · exact follows_throw trivial
  split
  · exact follows_throw trivial
  extract_lets archives unarchives afterName
  have named : ∀ name, DmFollows (.seen id channel) (afterName name) := by
    intro name
    unfold afterName
    extract_lets afterArchive
    have stored : ∀ archivedAt, DmFollows (.seen id channel) (afterArchive archivedAt) := by
      intro archivedAt
      unfold afterArchive
      split
      · exact follows_pure trivial
      refine dmFollows_read (by trivial) fun now => ?_
      apply follows_port_bind
      · intro updated _
        refine ⟨.seen id channel, .updates rfl fun _ => rfl, ?_⟩
        apply dmFollows_of_issues
        split
        · split
          · exact Keeps.port_bind (by trivial) fun _ _ => Keeps.pure
          · exact Keeps.pure
        · exact Keeps.throw
      · exact fun thrown _ => ⟨_, .updates rfl fun _ => rfl, trivial⟩
    split
    · exact dmFollows_read (by trivial) fun now => dmFollows_bind Keeps.pure (fun _ => trivial) stored
    split
    · exact dmFollows_bind Keeps.pure (fun _ => trivial) stored
    · exact dmFollows_bind Keeps.pure (fun _ => trivial) stored
  split
  · exact dmFollows_bind Keeps.pure (fun _ => trivial) named
  · apply dmFollows_bind issues_nonEmptyString fun _ => trivial
    exact fun name => dmFollows_bind Keeps.pure (fun _ => trivial) named

theorem updateChannelVisibility_follows (userId id : String) (version : Option Int)
    (visibility : Option ChannelVisibility) :
    DmFollows .calm (updateChannelVisibility userId id version visibility) := by
  apply dmFollows_bind issues_requireVersion fun _ => trivial
  intro version
  split
  · exact follows_throw trivial
  rename_i visibility
  apply follows_bind
  apply loadReadable_follows.mono
  rintro (thrown | ⟨channel, membership⟩) after seen
  · trivial
  obtain rfl : after = .seen id channel := seen
  simp only []
  split
  · exact follows_throw trivial
  rename_i notDm
  split
  · exact follows_throw trivial
  split
  · exact follows_pure trivial
  refine dmFollows_read (by trivial) fun now => ?_
  apply follows_port_bind
  · intro updated _
    refine ⟨.seen id channel, .updates rfl fun isDm => absurd isDm notDm, ?_⟩
    split
    · exact follows_throw trivial
    · apply dmFollows_of_issues
      have audits : Issues Call.IsSteady (do
          ask (.audit ⟨"chat.channel.visibility", some userId, "channel", id,
            .visibility channel.visibility visibility⟩)
          pure (toChannel { channel with
            visibility, version := channel.version + 1, updatedAt := now })) := by
        exact Keeps.port_bind (by trivial) fun _ _ => Keeps.pure
      split
      · refine Keeps.port_bind (by trivial) fun members _ => ?_
        exact Keeps.port_bind (by trivial) fun _ _ => audits
      · exact audits
  · exact fun thrown _ => ⟨_, .updates rfl fun isDm => absurd isDm notDm, trivial⟩

theorem addMember_follows (userId id : String) (member : JsonField String) (asAdmin : Bool) :
    DmFollows .calm (addMember userId id member asAdmin) := by
  apply dmFollows_bind issues_nonEmptyString fun _ => trivial
  intro added
  apply follows_port_bind
  · rintro (_ | channel) -
    · exact ⟨.calm, .steady trivial, follows_throw trivial⟩
    refine ⟨.seen id channel, .sees, ?_⟩
    simp only []
    split
    · exact follows_throw trivial
    rename_i notDm
    apply dmFollows_bind (issues_isChannelAdmin Call.IsRead.isSteady) fun _ => trivial
    intro isAdmin
    split
    · exact follows_throw trivial
    split
    · exact follows_throw trivial
    refine dmFollows_read (by trivial) fun existing => ?_
    split
    · exact follows_pure trivial
    refine dmFollows_read (by trivial) fun now => ?_
    have tells : Issues Call.IsSteady (do
        ask (.publish (.memberAdded id added))
        ask (.publishToChannel id (.memberAdded id added now))
        ask (.audit ⟨"chat.member.add", some userId, "channel", id, .member added none⟩)) := by
      refine Keeps.port_bind (by trivial) fun _ _ => ?_
      exact Keeps.port_bind (by trivial) fun _ _ => Keeps.port trivial
    apply follows_bind
    refine dmFollows_ask (by trivial) (fun _ => trivial) fun updated => ?_
    split
    · exact follows_pure (dmFollows_of_issues tells)
    · apply follows_port
      rintro (thrown | ⟨⟩) -
      · exact ⟨_, .joins notDm rfl, trivial⟩
      · exact ⟨_, .joins notDm rfl, dmFollows_of_issues tells⟩
  · exact fun thrown _ => ⟨.calm, .steady trivial, trivial⟩

theorem removeMember_follows (userId id removed : String) :
    DmFollows .calm (removeMember userId id removed) := by
  apply follows_port_bind
  · rintro (_ | channel) -
    · exact ⟨.calm, .steady trivial, follows_throw trivial⟩
    refine ⟨.seen id channel, .sees, ?_⟩
    simp only []
    split
    · exact follows_throw trivial
    rename_i notDm
    have removes : ∀ isAllowed : Bool, DmFollows (.seen id channel)
        (if !isAllowed then throw (forbidden "channel admin or self required")
        else do
          let deleted : Bool ← query (.deleteMember id removed)
          if !deleted then pure ()
          else do
            let now : String ← ask .now
            ask (.publish (.memberRemoved id removed))
            ask (.publishToChannel id (.memberRemoved id removed now))
            ask (.audit ⟨"chat.member.remove", some userId, "channel", id,
              .member removed (some (removed = userId))⟩)) := by
      intro isAllowed
      split
      · exact follows_throw trivial
      apply follows_port_bind
      · intro deleted _
        refine ⟨.seen id channel, .leaves notDm, ?_⟩
        apply dmFollows_of_issues
        split
        · exact Keeps.pure
        refine Keeps.port_bind (by trivial) fun now _ => ?_
        refine Keeps.port_bind (by trivial) fun _ _ => ?_
        exact Keeps.port_bind (by trivial) fun _ _ => Keeps.port trivial
      · exact fun thrown _ => ⟨_, .leaves notDm, trivial⟩
    split
    · exact dmFollows_bind Keeps.pure (fun _ => trivial) removes
    · exact dmFollows_bind (issues_isChannelAdmin Call.IsRead.isSteady) (fun _ => trivial) removes
  · exact fun thrown _ => ⟨.calm, .steady trivial, trivial⟩

/-- The channel of the system and the user, found or created. -/
theorem systemChannel_follows (target : String) :
    Follows dmProtocol (.targets target) (systemChannel target) fun
      | .ok id, after => after = .posting target id
      | .error _, _ => True := by
  apply follows_port_bind
  · rintro (_ | existing) -
    · refine ⟨.targets target, .steady trivial, ?_⟩
      refine dmFollows_ask (by trivial) (fun _ => trivial) fun now => ?_
      apply follows_port_bind
      · intro id _
        refine ⟨.drawnFor target id, .drawsFor, ?_⟩
        apply follows_port_bind
        · intro _ _
          refine ⟨.posting target id, .createsFor rfl ⟨rfl, rfl, rfl, rfl⟩, ?_⟩
          apply follows_bind
          refine dmFollows_ask (by trivial) (fun _ => trivial) fun updated => ?_
          split
          · exact follows_pure (follows_pure rfl)
          · apply follows_port
            rintro (thrown | ⟨⟩) -
            · exact ⟨_, .joinsOwn ⟨rfl, rfl⟩, trivial⟩
            · exact ⟨_, .joinsOwn ⟨rfl, rfl⟩, follows_pure rfl⟩
        · exact fun thrown _ => ⟨_, .losesFor, trivial⟩
      · exact fun thrown _ => ⟨_, .undrawn, trivial⟩
    · refine ⟨.posting target existing.id, .locates, ?_⟩
      exact dmFollows_ask (by trivial) (fun _ => trivial) fun now => follows_pure rfl
  · exact fun thrown _ => ⟨_, .steady trivial, trivial⟩

theorem postSystemMessage_follows (body : PostSystemMessageRequest) :
    DmFollows (Operation.postSystemMessage body).firstPhase (postSystemMessage body) := by
  have stores : ∀ (phase : DmPhase) (channelId text : String),
      (∀ row answer, row.channelId = channelId →
        phase.Leads (.db (.insertMessage row)) answer phase) →
      DmFollows phase (do
        let now : String ← ask .now
        let id : String ← ask .newMessageId
        let row : MessageRow :=
          { id, channelId, threadRootId := none, authorId := none, kind := .system, body := text
            attachmentFileIds := [], version := 1, editedAt := none, deletedAt := none
            createdAt := now }
        query (.insertMessage row)
        ask (.audit ⟨"chat.system.post", none, "message", id, .channel channelId⟩)
        pure (toMessage row [])) := by
    intro phase channelId text leads
    refine dmFollows_read (by trivial) fun now => ?_
    refine dmFollows_read (by trivial) fun id => ?_
    apply follows_port_bind
    · intro _ _
      refine ⟨phase, leads _ _ rfl, ?_⟩
      exact dmFollows_read (by trivial) fun _ => follows_pure trivial
    · exact fun thrown _ => ⟨phase, leads _ _ rfl, trivial⟩
  apply dmFollows_bind issues_requireBody fun _ => trivial
  intro text
  apply follows_bind
  have located : Follows dmProtocol (Operation.postSystemMessage body).firstPhase
      (systemTarget body) fun
        | .ok channelId, after => ∀ row answer, row.channelId = channelId →
            after.Leads (.db (.insertMessage row)) answer after
        | .error _, _ => True := by
    unfold systemTarget
    cases isChannel : body.channelId.filter fun id => id ≠ "" with
    | some channelId =>
      have noTarget : (Operation.postSystemMessage body).target = none := by
        simp only [Operation.target, isChannel]
      have isCalm : (Operation.postSystemMessage body).firstPhase = .calm := by
        rw [Operation.firstPhase, noTarget]
        rfl
      rw [isCalm]
      cases body.targetUserId.filter fun id => id ≠ "" with
      | some target => exact follows_throw trivial
      | none =>
        apply dmFollows_ask
        · exact trivial
        · exact fun _ => trivial
        rintro (_ | channel)
        · exact follows_throw trivial
        · simp only []
          split
          · exact follows_throw trivial
          · exact follows_pure fun _ _ _ => .postsTo
    | none =>
      cases isTarget : body.targetUserId.filter fun id => id ≠ "" with
      | some target =>
        have hasTarget : (Operation.postSystemMessage body).target = some target := by
          simp only [Operation.target, isChannel, isTarget]
        have isFirst : (Operation.postSystemMessage body).firstPhase = .targets target := by
          rw [Operation.firstPhase, hasTarget]
          rfl
        rw [isFirst]
        apply (systemChannel_follows target).mono
        rintro (thrown | channelId) after located
        · trivial
        · obtain rfl : after = .posting target channelId := located
          exact fun row answer isHere => .posts isHere
      | none => exact follows_throw trivial
  apply located.mono
  rintro (thrown | channelId) after leads
  · trivial
  · exact stores after channelId text leads

/-- What `createChannel` returns for a direct message. -/
def Returned (parties : Option (List String)) (outcome : Except ChatError Channel)
    (phase : DmPhase) : Prop :=
  ∀ set channel, parties = some set → outcome = .ok channel →
    ∃ current, phase = .matched channel.id current ∧ current ≠ [] ∧ sameSet current set = true

theorem returned_error {parties : Option (List String)} {thrown : ChatError} :
    Returned parties (.error thrown) phase := by
  intro set channel isSet isOk
  cases isOk

theorem returned_none {outcome : Except ChatError Channel} : Returned none outcome phase := by
  intro set channel isSet
  cases isSet

theorem sameSet_self (items : List String) : sameSet items items = true := by
  simp [sameSet]

variable {parties : List String}

theorem findDm_follows (isSome : parties ≠ []) :
    Follows dmProtocol (.asks parties) (findDm (dmKey parties) parties) fun
      | .ok none, after => after = .asks parties
      | .ok (some channel), after => Returned (some parties) (.ok channel) after
      | .error _, _ => True := by
  apply follows_port_bind
  · rintro (_ | existing) -
    · exact ⟨.asks parties, .steady trivial, follows_pure rfl⟩
    · refine ⟨.found parties existing.id, .finds, ?_⟩
      apply follows_port_bind
      · intro members _
        refine ⟨.matched existing.id (members.map MemberRow.userId), .compares, ?_⟩
        simp only []
        split
        · rename_i isSame
          apply follows_pure
          rintro set channel ⟨⟩ ⟨⟩
          refine ⟨_, rfl, ?_, isSame⟩
          intro isEmpty
          rw [isEmpty] at isSame
          simp [sameSet] at isSame
          exact isSome (length_eq_zero_iff.mp isSame.symm)
        · exact follows_throw trivial
      · exact fun thrown _ => ⟨_, .steady trivial, trivial⟩
  · exact fun thrown _ => ⟨_, .steady trivial, trivial⟩

theorem findExistingDm_follows (isSome : parties ≠ []) :
    Follows dmProtocol (.asks parties) (findExistingDm .dm parties) fun
      | .ok none, after => after = .asks parties ∧ Sized parties
      | .ok (some channel), after => Returned (some parties) (.ok channel) after
      | .error _, _ => True := by
  unfold findExistingDm
  rw [if_pos rfl]
  split
  · exact follows_throw trivial
  rename_i enough
  split
  · exact follows_throw trivial
  rename_i notTooMany
  apply (findDm_follows isSome).mono
  rintro (thrown | _ | channel) after found
  · trivial
  · exact ⟨found, enough, notTooMany⟩
  · exact found

variable {members : List String} {type : ChannelType}

theorem issues_announceCreated {id name now : String} {visibility : ChannelVisibility}
    {channel : Channel} :
    Issues Call.IsSteady (do
      ask (.publish (.channelCreated id name))
      announceMembers userId id now members
      ask (.audit ⟨"chat.channel.created", some userId, "channel", id, .created type visibility⟩)
      pure channel) := by
  refine Keeps.port_bind (by trivial) fun _ _ => ?_
  apply Keeps.bind (issues_announceMembers Call.IsRead.isSteady members)
  intro _
  exact Keeps.port_bind (by trivial) fun _ _ => Keeps.pure

theorem memberRows_ofChannel {id now : String} :
    ∀ member ∈ memberRows userId id type now members, member.channelId = id := by
  intro member isMember
  obtain ⟨uid, -, rfl⟩ := List.mem_map.mp isMember
  rfl

theorem memberRows_userIds {id now : String} :
    (memberRows userId id type now members).map MemberRow.userId = members := by
  simp [memberRows, Function.comp_def]

theorem initialMembers_ne_nil {body : CreateChannelRequest} : initialMembers userId body ≠ [] := by
  intro isEmpty
  have isIn : userId ∈ initialMembers userId body := by
    rw [initialMembers, mem_unique]
    exact .head _
  rw [isEmpty] at isIn
  cases isIn

theorem createChannel_follows (userId : String) (body : CreateChannelRequest) :
    Follows dmProtocol (Operation.createChannel userId body).firstPhase (createChannel userId body)
      (Returned (Operation.createChannel userId body).parties) := by
  unfold createChannel
  split
  · exact follows_throw returned_error
  rename_i type isType
  split
  · exact follows_throw returned_error
  rename_i visibility isVisibility
  by_cases isDm : type = .dm
  · subst isDm
    have isParties : (Operation.createChannel userId body).parties =
        some (initialMembers userId body) := by
      simp [Operation.parties, isType]
    have isFirst : (Operation.createChannel userId body).firstPhase =
        .asks (initialMembers userId body) := by
      rw [Operation.firstPhase, isParties]
    rw [isFirst, isParties]
    obtain rfl : .isPrivate = visibility := by simpa using isVisibility
    extract_lets members afterWinner afterName
    have named : ∀ name, Follows dmProtocol (.asks members) (afterName name)
        (Returned (some members)) := by
      intro name
      unfold afterName
      apply dmFollows_bind (issues_requireEvent Call.IsRead.isSteady) fun _ => returned_error
      intro eventId
      apply follows_bind
      apply (findExistingDm_follows initialMembers_ne_nil).mono
      rintro (thrown | _ | existing) after found
      · exact returned_error
      · obtain ⟨rfl, sized⟩ := found
        refine dmFollows_ask (by trivial) (fun _ => returned_error) fun now => ?_
        apply follows_port_bind
        · intro id _
          refine ⟨_, .drawsDm sized, ?_⟩
          apply follows_port_bind
          · rintro (_ | _) -
            · refine ⟨_, .losesDm rfl memberRows_ofChannel (by simp), ?_⟩
              apply follows_bind
              apply (findDm_follows initialMembers_ne_nil).mono
              rintro (thrown | _ | winner) after found
              · exact returned_error
              · exact follows_throw returned_error
              · exact follows_pure found
            · refine ⟨_, .createsDm rfl memberRows_ofChannel
                ⟨rfl, rfl, rfl, memberRows_userIds⟩, ?_⟩
              refine dmFollows_ask (by trivial) (fun _ => returned_error) fun _ => ?_
              apply dmFollows_bind (issues_announceMembers Call.IsRead.isSteady members)
                fun _ => returned_error
              intro _
              refine dmFollows_ask (by trivial) (fun _ => returned_error) fun _ => ?_
              apply follows_pure
              rintro set channel ⟨⟩ ⟨⟩
              exact ⟨members, rfl, initialMembers_ne_nil, sameSet_self members⟩
          · exact fun thrown _ =>
              ⟨_, .losesDm rfl memberRows_ofChannel (by simp), returned_error⟩
        · exact fun thrown _ => ⟨_, .undrawn, returned_error⟩
      · exact follows_pure found
    exact dmFollows_bind Keeps.pure (fun _ => returned_error) named
  · have isParties : (Operation.createChannel userId body).parties = none := by
      simp [Operation.parties, isType, isDm]
    have isFirst : (Operation.createChannel userId body).firstPhase = .calm := by
      rw [Operation.firstPhase, isParties]
      rfl
    rw [isFirst, isParties]
    suffices follows : DmFollows .calm _ from follows.mono fun _ _ _ => returned_none
    extract_lets members afterWinner afterName
    have named : ∀ name, DmFollows .calm (afterName name) := by
      intro name
      unfold afterName
      apply dmFollows_bind (issues_requireEvent Call.IsRead.isSteady) fun _ => trivial
      intro eventId
      have noDm : findExistingDm type members = pure none := by
        rw [findExistingDm, if_neg isDm]
      rw [noDm]
      apply dmFollows_bind Keeps.pure fun _ => trivial
      rintro (_ | existing)
      · refine dmFollows_read (by trivial) fun now => ?_
        apply follows_port_bind
        · intro id _
          refine ⟨_, .draws, ?_⟩
          apply follows_port_bind
          · rintro (_ | _) -
            · refine ⟨_, .creates rfl memberRows_ofChannel ⟨isDm, if_neg isDm⟩, ?_⟩
              rw [if_neg (by simp), if_neg isDm]
              apply dmFollows_bind Keeps.pure fun _ => trivial
              rintro (_ | winner)
              · exact follows_throw trivial
              · exact follows_pure trivial
            · refine ⟨_, .creates rfl memberRows_ofChannel ⟨isDm, if_neg isDm⟩, ?_⟩
              exact dmFollows_of_issues issues_announceCreated
          · exact fun thrown _ =>
              ⟨_, .creates rfl memberRows_ofChannel ⟨isDm, if_neg isDm⟩, trivial⟩
        · exact fun thrown _ => ⟨_, .undrawn, trivial⟩
      · exact follows_pure trivial
    split
    · exact dmFollows_bind Keeps.pure (fun _ => trivial) named
    · exact dmFollows_bind issues_nonEmptyString (fun _ => trivial) named

def ReturnedBy (op : Operation) (outcome : Except ChatError Reply) (phase : DmPhase) : Prop :=
  ∀ set channel, op.parties = some set → outcome = .ok (.channel channel) →
    ∃ current, phase = .matched channel.id current ∧ current ≠ [] ∧ sameSet current set = true

theorem action_returns (toLowerCase : String → String) {op : Operation}
    (onDms : op.onDirectMessages = true) :
    Follows dmProtocol op.firstPhase (actionOf toLowerCase op) (ReturnedBy op) := by
  have others : ∀ {α : Type} (wrap : α → Reply) {action : ChatM α}, op.parties = none →
      DmFollows op.firstPhase action →
        Follows dmProtocol op.firstPhase (reply wrap action) (ReturnedBy op) := by
    intro α wrap action noParties follows
    have returned : ∀ outcome after, ReturnedBy op outcome after := by
      intro outcome after set channel isSet
      rw [noParties] at isSet
      cases isSet
    apply follows_bind
    apply follows.mono
    rintro (thrown | value) after -
    · exact returned _ after
    · exact follows_pure (returned _ after)
  cases op with
  | createChannel userId body =>
    apply follows_bind
    apply (createChannel_follows userId body).mono
    rintro (thrown | channel) after returned
    · intro set other isSet isOk
      cases isOk
    · apply follows_pure
      rintro set other isSet ⟨⟩
      exact returned set channel isSet rfl
  | postSystemMessage body => exact others _ rfl (postSystemMessage_follows body)
  | addMember userId id member asAdmin =>
    exact others _ rfl (addMember_follows userId id member asAdmin)
  | removeMember userId id removed => exact others _ rfl (removeMember_follows userId id removed)
  | updateChannel userId id body => exact others _ rfl (updateChannel_follows userId id body)
  | updateChannelVisibility userId id version visibility =>
    exact others _ rfl (updateChannelVisibility_follows userId id version visibility)
  | _ => cases onDms

theorem dms_governed (ids : Ids) (toLowerCase : String → String) {run : Operation → Bool}
    (onDms : ∀ op, run op = true → op.onDirectMessages = true) :
    dmProtocol.Governs (chatSystem ids toLowerCase run) Operation.firstPhase where
  program op _ startable := by
    have follows := action_returns toLowerCase (onDms op startable)
    unfold Follows at follows
    apply Protocol.followsTo_bind
    exact follows.mono fun _ _ _ => trivial
  possible _ := trivial

section Calls

variable {names : Names} {founded : String → List String} {ids : Ids} {world moved : World}
  {phases : List DmPhase} {after : DmPhase} {request : Call}
  {answer : Except ChatError (Call.Result request)}

variable {store : Store}

theorem isMember_updateMember {row : MemberRow} {channelId : String} :
    (store.updateMember row).2.IsMember channelId userId ↔ store.IsMember channelId userId := by
  constructor
  · rintro ⟨member, isIn, isMember⟩
    obtain ⟨old, oldMem, rfl⟩ := List.mem_map.mp isIn
    refine ⟨old, oldMem, ?_⟩
    split at isMember
    · exact isMember
    · exact isMember
  · rintro ⟨old, oldMem, isMember⟩
    refine ⟨_, mem_def.mpr (mem_map_of_mem oldMem), ?_⟩
    split
    · exact isMember
    · exact isMember

theorem PartiesWith.steady (inv : PartiesWith names founded ids world phases)
    (isSteady : request.IsSteady)
    (answers : (chatMachine ids).Answers request world answer moved) :
    PartiesWith names founded ids moved phases := by
  have draws : moved.store = world.store → world.drawn ≤ moved.drawn →
      PartiesWith names founded ids moved phases := by
    intro sameStore later
    apply inv.frame
    · rw [sameStore]
    · rw [sameStore]
      exact fun _ _ => Iff.rfl
    · rw [sameStore]
    · exact later
  have reads : request.IsRead → PartiesWith names founded ids moved phases := by
    intro isRead
    obtain rfl := world_of_isRead isRead answers
    exact inv
  cases request with
  | db statement =>
    cases statement with
    | updateMember row =>
      obtain ⟨-, rfl⟩ := answers_db answers
      exact inv.frame rfl (fun _ _ => isMember_updateMember) rfl le_rfl
    | _ => exact reads isSteady
  | newChannelId => exact isSteady.elim
  | newMessageId | newSectionId =>
    cases answers
    exact draws rfl (Nat.le_succ _)
  | _ => exact reads isSteady

theorem PartiesWith.draw (inv : PartiesWith names founded ids world (phase :: phases))
    (isUnused : after.unused = some (ids.channel world.drawn))
    (holds : (∀ channel ∈ world.store.channels, channel.id ≠ ids.channel world.drawn) →
      (∀ n, world.drawn + 1 ≤ n → ids.channel n ≠ ids.channel world.drawn) →
        after.Holds names founded ids { world with drawn := world.drawn + 1 }) :
    PartiesWith names founded ids { world with drawn := world.drawn + 1 } (after :: phases) := by
  have rest : PartiesWith names founded ids { world with drawn := world.drawn + 1 } phases :=
    inv.tail.frame rfl (fun _ _ => Iff.rfl) rfl (Nat.le_succ _)
  apply rest.enter
  · apply holds
    · exact fun channel member isDrawn =>
        inv.parties.fresh channel member world.drawn le_rfl isDrawn.symm
    · intro n isLater same
      have isDrawn := ids.channel_injective same
      omega
  · intro other member id isId isOther
    rw [isUnused] at isId
    cases isId
    have itsHolds := inv.holds other (mem_cons_of_mem phase member)
    cases other with
    | drawn set id | drawnFor target id =>
      cases isOther
      exact itsHolds.2.2 world.drawn le_rfl rfl
    | _ => cases isOther

variable {id : String}

/-- No other operation holds an id that this one has drawn. -/
theorem PartiesWith.away (inv : PartiesWith names founded ids world (phase :: phases))
    (isUnused : phase.unused = some id) :
    ∀ other ∈ phases, other.unused ≠ some id :=
  fun other member => (pairwise_cons.mp inv.apart).1 other member id isUnused

variable {row : ChannelRow} {set : List String}

theorem founds_batch {members : List MemberRow}
    {answer : Except ChatError (Call.Result (.db (.insertChannelWithMembers row members)))}
    (isFounded : founds (.db (.insertChannelWithMembers row members)) answer = some (id, set)) :
    answer = .ok true ∧ row.type = .dm ∧ row.id = id ∧ members.map MemberRow.userId = set := by
  rcases answer with thrown | (_ | _)
  · cases isFounded
  · cases isFounded
  · simp only [founds, ite_none_right_eq_some, Option.some.injEq, Prod.mk.injEq] at isFounded
    exact ⟨rfl, isFounded⟩

theorem founds_insert {answer : Except ChatError (Call.Result (.db (.insertChannel row)))}
    (isFounded : founds (.db (.insertChannel row)) answer = some (id, set)) :
    (∃ result, answer = .ok result) ∧ row.type = .dm ∧ row.id = id ∧ [row.createdBy] = set := by
  rcases answer with thrown | result
  · cases isFounded
  · simp only [founds, ite_none_right_eq_some, Option.some.injEq, Prod.mk.injEq] at isFounded
    exact ⟨⟨result, rfl⟩, isFounded⟩

/-- What the answer to a look-up by key says. -/
theorem mem_of_selectChannelByDmKey {key : String}
    (found : (store.channels.rows.find? fun row => row.dmKey = some key) = some row) :
    row ∈ store.channels ∧ row.dmKey = some key := by
  refine ⟨mem_of_find?_eq_some found, ?_⟩
  simpa using find?_some found

theorem mem_selectMembers {channelId : String} :
    userId ∈ (store.selectMembers channelId).map MemberRow.userId ↔
      store.IsMember channelId userId := by
  simp only [Store.selectMembers, Store.ascending, List.mem_map, mem_insertionSort,
    mem_filter, decide_eq_true_eq]
  constructor
  · rintro ⟨member, ⟨isIn, isHere⟩, isUser⟩
    exact ⟨member, isIn, isHere, isUser⟩
  · rintro ⟨member, isIn, isHere, isUser⟩
    exact ⟨member, ⟨isIn, isHere⟩, isUser⟩

theorem selectMembers_nodup (store : Store) (channelId : String) :
    ((store.selectMembers channelId).map MemberRow.userId).Nodup := by
  have keys : ((store.selectMembers channelId).map MemberRow.key).Nodup := by
    have perm : (store.selectMembers channelId).Perm
        (store.members.rows.filter fun row => row.channelId = channelId) :=
      perm_insertionSort _ _
    rw [(perm.map MemberRow.key).nodup_iff]
    exact store.members.keysNodup.sublist (filter_sublist.map MemberRow.key)
  have isHere : ∀ member ∈ store.selectMembers channelId, member.channelId = channelId := by
    intro member isIn
    rw [Store.selectMembers, Store.ascending, mem_insertionSort, mem_filter] at isIn
    exact of_decide_eq_true isIn.2
  apply List.Nodup.map_on _ (List.Nodup.of_map MemberRow.key keys)
  intro first firstMem second secondMem sameUser
  apply inj_on_of_nodup_map keys firstMem secondMem
  exact Prod.ext ((isHere first firstMem).trans (isHere second secondMem).symm) sameUser

theorem founds_of_isSteady (isSteady : request.IsSteady) : founds request answer = none := by
  unfold founds
  split
  · exact isSteady.elim
  · exact isSteady.elim
  · rfl

/-- The channel of an id that was read has the type that was read. -/
theorem DmPhase.Holds.type_eq {channel : ChannelRow}
    (holds : DmPhase.Holds names founded ids world (.seen id row))
    (member : channel ∈ world.store.channels) (isChannel : channel.id = id) :
    channel.type = row.type := by
  obtain ⟨⟨present, presentMem, isPresent, sameType⟩, -⟩ := holds
  rwa [eq_of_key_eq member presentMem (isChannel.trans isPresent.symm)]

theorem PartiesWith.call {others : List (Operation × Prog chatSignature Unit)}
    (permitted : membersFirst.mayCall request world others)
    (answers : (chatMachine ids).Answers request world answer moved)
    (leads : phase.Leads request answer after)
    (inv : PartiesWith names founded ids world (phase :: phases)) :
    ∃ refounded, PartiesWith names refounded ids moved (after :: phases) ∧
      ∀ id set, founds request answer = some (id, set) →
        moved.store.IsMeantFor refounded id set := by
  have parties := inv.parties
  have holds := inv.holds phase (.head _)
  cases leads with
  | steady isSteady =>
    refine ⟨founded, inv.steady isSteady answers, ?_⟩
    rw [founds_of_isSteady isSteady]
    nofun
  | undrawn =>
    obtain ⟨isAnswer, -⟩ := Prod.mk.inj answers
    cases isAnswer
  | @sees id row =>
    obtain ⟨isAnswer, rfl⟩ := answers_db answers
    have found : world.store.channels.find? id = some row := (ok.inj isAnswer).symm
    obtain ⟨member, isRow⟩ := find?_eq_some.mp found
    refine ⟨founded, inv.tail.enterUsed rfl ?_, nofun⟩
    exact ⟨⟨row, member, isRow, rfl⟩, isRow, parties.isPrivate row member⟩
  | @updates id row next version _ sameId isPrivate =>
    obtain ⟨-, rfl⟩ := answers_db answers
    refine ⟨founded, inv.updateChannel ?_, nofun⟩
    have ⟨_, isRow, rowPrivate⟩ := holds
    intro channel member isNext isDm
    have rowDm : row.type = .dm :=
      (holds.type_eq member (isNext.trans (sameId.trans isRow))).symm.trans isDm
    rw [isPrivate rowDm, rowPrivate rowDm]
  | @joins id row member _ notDm isHere =>
    obtain ⟨-, rfl⟩ := answers_db answers
    refine ⟨founded, inv.insertMember ?_, nofun⟩
    intro channel channelMem isChannel isDm
    exact absurd ((holds.type_eq channelMem (isChannel.trans isHere)).symm.trans isDm) notDm
  | @leaves id row userId _ notDm =>
    obtain ⟨-, rfl⟩ := answers_db answers
    refine ⟨founded, inv.deleteMember ?_, nofun⟩
    intro channel channelMem isChannel isDm
    exact absurd ((holds.type_eq channelMem isChannel).symm.trans isDm) notDm
  | @finds set row =>
    obtain ⟨isAnswer, rfl⟩ := answers_db answers
    obtain ⟨member, isKey⟩ := mem_of_selectChannelByDmKey (ok.inj isAnswer).symm
    refine ⟨founded, inv.tail.enterUsed rfl ?_, nofun⟩
    exact ⟨row, member, rfl, parties.keyed row member (by rw [isKey]; rfl)⟩
  | @compares set id rows =>
    obtain ⟨isAnswer, rfl⟩ := answers_db answers
    obtain rfl : rows = world.store.selectMembers id := ok.inj isAnswer
    refine ⟨founded, inv.tail.enterUsed rfl ?_, nofun⟩
    refine ⟨selectMembers_nodup world.store id, ?_⟩
    intro isThere
    obtain ⟨channel, member, rfl, isDm⟩ := holds
    obtain ⟨userId, isMember⟩ := exists_mem_of_ne_nil _ isThere
    have complete := parties.isComplete member isDm ⟨userId, mem_selectMembers.mp isMember⟩
    refine ⟨⟨⟨channel, member, rfl, isDm⟩, ?_⟩, complete⟩
    intro user
    rw [mem_selectMembers]
    exact ⟨complete user, parties.joined channel member isDm user⟩
  | draws =>
    obtain ⟨isAnswer, rfl⟩ := Prod.mk.inj answers
    cases isAnswer
    exact ⟨founded, inv.draw rfl fun isNew isLast => ⟨nofun, isNew, isLast⟩, nofun⟩
  | @drawsDm set id sized =>
    obtain ⟨isAnswer, rfl⟩ := Prod.mk.inj answers
    cases isAnswer
    refine ⟨founded, inv.draw rfl fun isNew isLast => ⟨?_, isNew, isLast⟩, nofun⟩
    rintro _ ⟨⟩
    exact ⟨holds.1, holds.2 sized⟩
  | @creates id row members _ isRow ofRow notDm =>
    obtain ⟨-, rfl⟩ := answers_db answers
    subst isRow
    rcases Store.insertChannelWithMembers_cases ofRow holds.2.1 with same | ⟨notTaken, isNew⟩
    · have unchanged : (world.store.exec (.insertChannelWithMembers row members)).2 =
        world.store := congrArg Prod.snd same
      rw [unchanged]
      exact ⟨founded, inv.tail.enterUsed rfl trivial,
        fun id set isFounded => absurd (founds_batch isFounded).2.1 notDm.1⟩
    · have created : (world.store.exec (.insertChannelWithMembers row members)).2 =
        world.store.withChannel row members := congrArg Prod.snd isNew
      rw [created]
      have grown := @PartiesWith.create _ _ _ _ _ inv.tail members row ofRow [] holds.2.1
        holds.2.2 notTaken (inv.away rfl) (by simp [notDm.2]) fun isDm => absurd isDm notDm.1
      exact ⟨_, grown.enterUsed rfl trivial,
        fun id set isFounded => absurd (founds_batch isFounded).2.1 notDm.1⟩
  | @createsDm set id row members isRow ofRow isDm =>
    obtain ⟨isAnswer, rfl⟩ := answers_db answers
    subst isRow
    rcases Store.insertChannelWithMembers_cases ofRow holds.2.1 with same | ⟨notTaken, isNew⟩
    · have isFalse : (world.store.exec (.insertChannelWithMembers row members)).1 =
        .ok false := congrArg Prod.fst same
      rw [isFalse] at isAnswer
      cases isAnswer
    · have created : (world.store.exec (.insertChannelWithMembers row members)).2 =
        world.store.withChannel row members := congrArg Prod.snd isNew
      rw [created]
      obtain ⟨isDirect, isPrivate, hasKey, isSet⟩ := isDm
      have named := holds.1 set rfl
      have grown := inv.tail.create ofRow holds.2.1 holds.2.2 notTaken (inv.away rfl)
        (fun _ => isDirect) fun _ => ⟨isPrivate, hasKey, named.2, .inr isSet⟩
      have isMeant : (world.store.withChannel row members).IsMeantFor
          (update founded row.id set) row.id set := by
        refine ⟨⟨row, (Store.mem_withChannel holds.2.1).mpr (.inr rfl), rfl, isDirect⟩, ?_⟩
        rw [update_self]
        exact fun _ => Iff.rfl
      have isComplete : (world.store.withChannel row members).IsComplete
          (update founded row.id set) row.id := by
        intro userId isParty
        rw [update_self] at isParty
        apply (Store.isMember_withChannel ofRow).mpr
        exact .inr ⟨rfl, isSet ▸ isParty⟩
      have entered : PartiesWith names _ ids _ (.matched row.id set :: phases) :=
        grown.enterUsed rfl ⟨named.1, fun _ => ⟨isMeant, isComplete⟩⟩
      refine ⟨_, entered, ?_⟩
      intro id other isFounded
      obtain ⟨-, -, rfl, rfl⟩ := founds_batch isFounded
      rwa [isSet]
  | @losesDm set id row members _ isRow ofRow lost =>
    obtain ⟨isAnswer, rfl⟩ := answers_db answers
    subst isRow
    have holdsAsks : DmPhase.Holds names founded ids world (.asks set) :=
      ⟨(holds.1 set rfl).1, fun _ => (holds.1 set rfl).2⟩
    rcases Store.insertChannelWithMembers_cases ofRow holds.2.1 with same | ⟨-, isNew⟩
    · have unchanged : (world.store.exec (.insertChannelWithMembers row members)).2 =
        world.store := congrArg Prod.snd same
      rw [unchanged]
      exact ⟨founded, inv.tail.enterUsed rfl holdsAsks,
        fun id set isFounded => absurd (founds_batch isFounded).1 lost⟩
    · have isTrue : (world.store.exec (.insertChannelWithMembers row members)).1 =
        .ok true := congrArg Prod.fst isNew
      rw [isTrue] at isAnswer
      exact absurd isAnswer lost
  | @locates target row =>
    obtain ⟨isAnswer, rfl⟩ := answers_db answers
    obtain ⟨member, isKey⟩ := mem_of_selectChannelByDmKey (ok.inj isAnswer).symm
    refine ⟨founded, inv.tail.enterUsed rfl ?_, nofun⟩
    have isDm := parties.keyed row member (by rw [isKey]; rfl)
    obtain ⟨hasKey, isNamed⟩ := parties.hasKey row member isDm
    have sameKey : dmKey (founded row.id) = dmKey [target] :=
      some.inj (hasKey.symm.trans isKey)
    exact ⟨⟨row, member, rfl, isDm⟩, names.apart target holds _ isNamed sameKey⟩
  | drawsFor =>
    obtain ⟨isAnswer, rfl⟩ := Prod.mk.inj answers
    cases isAnswer
    exact ⟨founded, inv.draw rfl fun isNew isLast => ⟨holds, isNew, isLast⟩, nofun⟩
  | @createsFor target id row _ isRow isDm =>
    obtain ⟨isAnswer, rfl⟩ := answers_db answers
    subst isRow
    rcases world.store.insertChannel_cases row with ⟨⟨thrown, throws⟩, -⟩ | ⟨notTaken, isNew⟩
    · have isError : (world.store.exec (.insertChannel row)).1 = .error thrown := throws
      rw [isError] at isAnswer
      cases isAnswer
    · have created : (world.store.exec (.insertChannel row)).2 =
        world.store.withChannel row [] := congrArg Prod.snd isNew
      rw [created]
      obtain ⟨isDirect, isPrivate, hasKey, rfl⟩ := isDm
      have grown := @PartiesWith.create _ _ _ _ _ inv.tail [] row (by simp) [row.createdBy]
        holds.2.1 holds.2.2 notTaken (inv.away rfl)
        (fun _ => isDirect) fun _ =>
          ⟨isPrivate, hasKey, names.ofTarget _ holds.1, .inl ⟨rfl, rfl⟩⟩
      have isMeant : (world.store.withChannel row []).IsMeantFor
          (update founded row.id [row.createdBy]) row.id [row.createdBy] := by
        refine ⟨⟨row, (Store.mem_withChannel holds.2.1).mpr (.inr rfl), rfl, isDirect⟩, ?_⟩
        rw [update_self]
        exact fun _ => Iff.rfl
      have entered : PartiesWith names _ ids _ (.posting row.createdBy row.id :: phases) :=
        grown.enterUsed rfl isMeant
      refine ⟨_, entered, ?_⟩
      intro id set isFounded
      obtain ⟨-, -, rfl, rfl⟩ := founds_insert isFounded
      exact isMeant
  | @losesFor target id row thrown =>
    obtain ⟨isAnswer, rfl⟩ := answers_db answers
    rcases world.store.insertChannel_cases row with ⟨-, same⟩ | ⟨-, isNew⟩
    · have unchanged : (world.store.exec (.insertChannel row)).2 = world.store := same
      rw [unchanged]
      have entered : PartiesWith names founded ids world (.targets target :: phases) :=
        inv.tail.enterUsed rfl holds.1
      refine ⟨founded, entered, ?_⟩
      intro id set isFounded
      obtain ⟨⟨result, isOk⟩, -⟩ := founds_insert isFounded
      cases isOk
    · have isOk : (world.store.exec (.insertChannel row)).1 = .ok () :=
        congrArg Prod.fst isNew
      rw [isOk] at isAnswer
      cases isAnswer
  | @joinsOwn target id member _ isHere =>
    obtain ⟨-, rfl⟩ := answers_db answers
    refine ⟨founded, inv.insertMember ?_, nofun⟩
    intro channel channelMem isChannel isDm userId
    rw [isChannel, isHere.1, holds.2, mem_singleton, isHere.2]
  | posts isHere | postsTo =>
    obtain ⟨-, rfl⟩ := answers_db answers
    exact ⟨founded, inv.insertMessage permitted, nofun⟩

end Calls

section Kept

variable {ids : Ids} {toLowerCase : String → String} {run : Operation → Bool} {names : Names}

structure Names.Admits (names : Names) (run : Operation → Bool) : Prop where
  parties : ∀ op set, run op = true → op.parties = some set → Sized set → names.parties set
  target : ∀ op user, run op = true → op.target = some user → names.target user

variable {set : List String}

variable {op : Operation}

theorem Operation.parties_nodup (isSet : op.parties = some set) : set.Nodup := by
  cases op with
  | createChannel userId body =>
    simp only [Operation.parties, ite_none_right_eq_some, Option.some.injEq] at isSet
    obtain ⟨-, rfl⟩ := isSet
    exact unique_nodup _
  | _ => cases isSet

variable {founded : String → List String}

variable {world : World}

theorem firstPhase_holds (admits : names.Admits run)
    (startable : run op = true) : op.firstPhase.Holds names founded ids world := by
  unfold Operation.firstPhase
  split
  · rename_i set isSet
    exact ⟨Operation.parties_nodup isSet, admits.parties op set startable isSet⟩
  · rename_i user noParties isTarget
    exact admits.target op user startable isTarget
  · trivial

theorem firstPhase_unused (op : Operation) : op.firstPhase.unused = none := by
  unfold Operation.firstPhase
  split <;> rfl

theorem firstPhase_target {user : String} (isTarget : op.target = some user) :
    op.firstPhase = .targets user := by
  cases op with
  | postSystemMessage body => rw [Operation.firstPhase, isTarget]; rfl
  | _ => cases isTarget

theorem dms_preserved (admits : names.Admits run) :
    dmProtocol.Preserves (chatSystem ids toLowerCase run) membersFirst Operation.firstPhase
      fun world phases => ∃ founded, PartiesWith names founded ids world phases where
  perm perm := fun ⟨founded, inv⟩ => ⟨founded, inv.perm perm⟩
  start op _ startable := fun ⟨founded, inv⟩ =>
    ⟨founded, inv.enterUsed (firstPhase_unused op) (firstPhase_holds admits startable)⟩
  call _ permitted answers leads := fun ⟨_, inv⟩ =>
    let ⟨refounded, after, _⟩ := inv.call permitted answers leads
    ⟨refounded, after⟩
  environment same := fun inv => same ▸ inv
  stop _ _ := fun ⟨founded, inv⟩ => ⟨founded, inv.tail⟩

def Names.knowing (names : Names) (id : String) (set : List String) : Names :=
  { names with known := fun otherId other => otherId = id ∧ other = set }

variable {id : String}

theorem PartiesWith.knowing {phases : List DmPhase}
    (inv : PartiesWith names founded ids world phases)
    (isMeant : world.store.IsMeantFor founded id set) :
    PartiesWith (names.knowing id set) founded ids world phases := by
  have parties := inv.parties
  refine ⟨⟨parties.fresh, parties.membersIn, parties.messagesIn, parties.keys, parties.keyed,
    parties.isPrivate, parties.hasKey, parties.joined, parties.complete⟩, ?_, inv.apart, ?_⟩
  · intro phase member
    have holds := inv.holds phase member
    cases phase <;> exact holds
  · rintro otherId other ⟨rfl, rfl⟩
    exact isMeant

theorem known_of_founds {config middle : Config chatSignature World Operation} {request : Call}
    {answer : Except ChatError (Call.Result request)}
    (onDms : ∀ op, run op = true → op.onDirectMessages = true)
    (call : (chatSystem ids toLowerCase run).CallUnder membersFirst request answer config middle)
    (isFounded : founds request answer = some (id, set))
    (holds : dmProtocol.Holds
      (fun world phases => ∃ founded, PartiesWith names founded ids world phases) config) :
    dmProtocol.Holds (fun world phases =>
      ∃ founded, PartiesWith (names.knowing id set) founded ids world phases) middle := by
  cases call with
  | call op next moved permitted answers =>
    obtain ⟨phase, phases, follows, tracks, founded, inv⟩ := holds.front
      fun perm inv => inv.elim fun founded inv => ⟨founded, inv.perm perm⟩
    obtain ⟨later, leads, rest⟩ :=
      follows answer ((dms_governed ids toLowerCase onDms).possible answers)
    obtain ⟨refounded, after, meant⟩ := inv.call permitted answers leads
    obtain ⟨reordered, tracked, phasesPerm⟩ := tracks.insert (op, next answer) rest
    exact ⟨reordered, tracked, refounded, (after.perm phasesPerm).knowing (meant id set isFounded)⟩

variable {world : World}

theorem meant_of_isDmFor (onDms : ∀ op, run op = true → op.onDirectMessages = true)
    (admits : names.Admits run) (initial : ∃ founded, PartiesWith names founded ids world [])
    (knows : ∀ id set, (∃ channel ∈ world.store.channels, channel.id = id ∧
      channel.type = .dm) → world.store.HasParties id set → names.known id set)
    {config : Config chatSignature World Operation}
    (isDmFor : IsDmFor ids toLowerCase run membersFirst world config id set) :
    ∃ names founded phases, PartiesWith names founded ids config.world phases ∧
      config.world.store.IsMeantFor founded id set := by
  rcases isDmFor with ⟨reached, isDm, hasParties⟩ |
    ⟨request, answer, before, middle, reached, call, isFounded, later⟩
  · obtain ⟨phases, -, founded, inv⟩ :=
      (dms_preserved admits).reached (dms_governed ids toLowerCase onDms) reached initial
    exact ⟨names, founded, phases, inv, inv.known id set (knows id set isDm hasParties)⟩
  · have holds :=
      (dms_preserved admits).reached (dms_governed ids toLowerCase onDms) reached initial
    have known := known_of_founds onDms call isFounded holds
    have knowing : (names.knowing id set).Admits run := ⟨admits.parties, admits.target⟩
    obtain ⟨phases, -, founded, inv⟩ :=
      (dms_preserved knowing).run (dms_governed ids toLowerCase onDms) later known
    exact ⟨_, founded, phases, inv, inv.known id set ⟨rfl, rfl⟩⟩

theorem awaits_of_watched (onDms : ∀ op, run op = true → op.onDirectMessages = true)
    (admits : names.Admits run) (initial : ∃ founded, PartiesWith names founded ids world [])
    {watched : Watched chatSignature World Operation (Except ChatError Reply)}
    (reached : (chatSystem ids toLowerCase run).WatchedUnder membersFirst world op
      (actionOf toLowerCase op).run watched) :
    dmProtocol.Awaits (fun world phases => ∃ founded, PartiesWith names founded ids world phases)
      (ReturnedBy op) (fun phase => phase.target = op.firstPhase.target) watched := by
  have onDm : op.onDirectMessages = true := by
    obtain ⟨config, -, startable, -⟩ := reached
    exact onDms op startable
  have follows := action_returns toLowerCase onDm
  unfold Follows at follows
  have lasts : ∀ phase request answer after, dmProtocol.leads phase request answer after →
      phase.target = op.firstPhase.target → after.target = op.firstPhase.target :=
    fun phase request answer after leads isTarget => DmPhase.Leads.target leads |>.trans isTarget
  have isFirst : (fun phase => phase.target = op.firstPhase.target) op.firstPhase := rfl
  have preserved : dmProtocol.Preserves (chatSystem ids toLowerCase run) membersFirst
      Operation.firstPhase _ := dms_preserved admits
  exact preserved.watched (dms_governed ids toLowerCase onDms)
    (fun _ _ _ => trivial) lasts initial (fun startable => preserved.start op _ startable) follows
    isFirst reached

theorem insertMessage_members (store : Store) (row : MessageRow) :
    (store.insertMessage row).2.members = store.members := by
  unfold Store.insertMessage
  split
  · split
    · rfl
    · rfl
  · rfl

theorem Parties.key_of_isMeantFor
    (parties : Parties names founded ids world) (isMeant : world.store.IsMeantFor founded id set) :
    ∃ channel ∈ world.store.channels, channel.id = id ∧ channel.dmKey = some (dmKey set) := by
  obtain ⟨⟨channel, member, rfl, isDm⟩, same⟩ := isMeant
  refine ⟨channel, member, rfl, ?_⟩
  rw [(parties.hasKey channel member isDm).1, dmKey_congr same]

theorem mem_iff_of_sameSet {first second : List String} (nodup : first.Nodup)
    (same : sameSet first second = true) : ∀ item, item ∈ first ↔ item ∈ second := by
  simp only [sameSet, Bool.and_eq_true, Bool.decide_and, decide_eq_true_eq, List.all_eq_true]
    at same
  obtain ⟨sameLength, isIn⟩ := same
  have perm : first.Perm second :=
    (subperm_of_subset nodup isIn).perm_of_length_le sameLength.ge
  exact fun item => perm.mem_iff

/-- The names of a run: what the operations ask for, and what is there at the start. -/
def namesOf (run : Operation → Bool) (world : World) (apart : keysApart run world)
    (settled : world.Settled ids) : Names where
  parties set := (∃ op, run op = true ∧ op.parties = some set ∧ Sized set) ∨
    (∃ op user, run op = true ∧ op.target = some user ∧ set = [user]) ∨
      ∃ channel ∈ world.store.channels, channel.type = .dm ∧ world.store.HasParties channel.id set
  target user := ∃ op, run op = true ∧ op.target = some user
  known id set := (∃ channel ∈ world.store.channels, channel.id = id ∧ channel.type = .dm) ∧
    world.store.HasParties id set
  ofTarget := by
    rintro user ⟨op, startable, isTarget⟩
    exact .inr (.inl ⟨op, user, startable, isTarget, rfl⟩)
  apart := by
    rintro user ⟨op, startable, isTarget⟩ others given sameKey
    obtain ⟨fromTargets, fromParties, fromStart⟩ := apart op user startable isTarget
    rcases given with ⟨other, itsStart, isParties, sized⟩ | ⟨other, otherUser, itsStart, itsTarget, rfl⟩ |
      ⟨channel, member, isDm, hasParties⟩
    · simpa using fromParties other others itsStart isParties sized sameKey
    · rw [fromTargets other otherUser itsStart itsTarget sameKey]
      exact fun _ => Iff.rfl
    · obtain ⟨-, set, hasSet, hasKey⟩ := settled.dms channel member isDm
      have sameSets : dmKey set = dmKey others :=
        dmKey_congr fun userId => (hasSet userId).symm.trans (hasParties userId)
      have isUsers := fromStart channel member (by rw [hasKey, sameSets, sameKey])
      exact fun userId => (hasParties userId).symm.trans (isUsers userId)

theorem namesOf_admits {apart : keysApart run world} {settled : world.Settled ids} :
    (namesOf run world apart settled).Admits run where
  parties op _ startable isSet sized := .inl ⟨op, startable, isSet, sized⟩
  target op _ startable isTarget := ⟨op, startable, isTarget⟩

/-- At the start every direct message has the members it is meant for. -/
theorem namesOf_initial {apart : keysApart run world} {settled : world.Settled ids} :
    ∃ founded, PartiesWith (namesOf run world apart settled) founded ids world [] := by
  have sets : ∀ id, ∃ set, ∀ channel ∈ world.store.channels, channel.id = id →
      channel.type = .dm → world.store.HasParties id set ∧ channel.dmKey = some (dmKey set) := by
    intro id
    by_cases isThere : ∃ channel ∈ world.store.channels, channel.id = id ∧ channel.type = .dm
    · obtain ⟨channel, member, rfl, isDm⟩ := isThere
      obtain ⟨-, set, hasSet, hasKey⟩ := settled.dms channel member isDm
      refine ⟨set, fun other otherMem sameId _ => ?_⟩
      rw [eq_of_key_eq otherMem member sameId]
      exact ⟨hasSet, hasKey⟩
    · refine ⟨[], fun channel member isId isDm => ?_⟩
      exact absurd ⟨channel, member, isId, isDm⟩ isThere
  choose founded isFounded using sets
  refine ⟨founded, ⟨settled.fresh, settled.membersIn, settled.messagesIn, settled.keys,
    settled.keyed, fun channel member isDm => (settled.dms channel member isDm).1, ?_, ?_, ?_⟩,
    nofun, .nil, ?_⟩
  · intro channel member isDm
    obtain ⟨hasParties, hasKey⟩ := isFounded channel.id channel member rfl isDm
    exact ⟨hasKey, .inr (.inr ⟨channel, member, isDm, hasParties⟩)⟩
  · intro channel member isDm userId
    exact ((isFounded channel.id channel member rfl isDm).1 userId).mp
  · intro channel member isDm
    exact .inl fun userId => ((isFounded channel.id channel member rfl isDm).1 userId).mpr
  · rintro id set ⟨⟨channel, member, rfl, isDm⟩, hasParties⟩
    refine ⟨⟨channel, member, rfl, isDm⟩, fun userId => ?_⟩
    exact ((isFounded channel.id channel member rfl isDm).1 userId).symm.trans (hasParties userId)

/-- Where no message comes before the members, and keys are apart, direct messages belong to
exactly their participants. -/
theorem dmsBelong_ofMembersFirst (ids : Ids) (toLowerCase : String → String) :
    DmsBelongToParties keysApart membersFirst ids toLowerCase := by
  intro run world onDms settled apart
  have admits : (namesOf run world apart settled).Admits run := namesOf_admits
  have initial := @namesOf_initial ids run world apart settled
  have meant : ∀ {config id set},
      IsDmFor ids toLowerCase run membersFirst world config id set → _ :=
    meant_of_isDmFor onDms admits initial fun id set isDm hasParties => ⟨isDm, hasParties⟩
  constructor
  · intro config reached channel member isDm
    obtain ⟨phases, -, founded, inv⟩ :=
      (dms_preserved admits).reached (dms_governed ids toLowerCase onDms) reached initial
    exact inv.parties.isPrivate channel member isDm
  · rintro config id set isDmFor ⟨message, messageMem, rfl⟩
    obtain ⟨names, founded, phases, inv, isMeant⟩ := meant isDmFor
    apply inv.parties.hasParties isMeant
    obtain ⟨⟨channel, member, isChannel, isDm⟩, -⟩ := isMeant
    rw [← isChannel]
    rcases inv.parties.complete channel member isDm with complete | ⟨-, noMessage, -⟩
    · exact complete
    · exact absurd isChannel.symm (noMessage message messageMem)
  · intro config first second firstSet secondSet isFirst isSecond same
    obtain ⟨_, _, _, inv, isMeant⟩ := meant isFirst
    obtain ⟨_, _, _, otherInv, isOtherMeant⟩ := meant isSecond
    obtain ⟨channel, member, rfl, hasKey⟩ := inv.parties.key_of_isMeantFor isMeant
    obtain ⟨other, otherMem, rfl, otherKey⟩ := otherInv.parties.key_of_isMeantFor isOtherMeant
    apply inv.parties.keys channel member other otherMem
    · rw [hasKey]
      rfl
    · rw [hasKey, otherKey, dmKey_congr same]
  · intro op set watched channel isSet reached isDone
    obtain ⟨phase, phases, follows, -, -, founded, inv⟩ :=
      awaits_of_watched onDms admits initial reached
    rw [isDone] at follows
    obtain ⟨current, rfl, isThere, isSame⟩ := follows set channel isSet rfl
    obtain ⟨nodup, holds⟩ := inv.holds _ (.head _)
    obtain ⟨isMeant, complete⟩ := holds isThere
    intro userId
    rw [inv.parties.hasParties isMeant complete userId]
    exact mem_iff_of_sameSet nodup isSame userId
  · intro op user watched row next moved isTarget reached isCall permitted answers
    obtain ⟨phase, phases, follows, sameTarget, tracks, founded, inv⟩ :=
      awaits_of_watched onDms admits initial reached
    rw [isCall] at follows
    rw [firstPhase_target isTarget] at sameTarget
    obtain ⟨later, leads, -⟩ := follows (.ok ()) trivial
    have holds := inv.holds phase (.head _)
    cases leads with
    | steady isSteady => exact isSteady.elim
    | postsTo => cases sameTarget
    | posts isHere =>
      cases sameTarget
      subst isHere
      obtain ⟨⟨channel, member, isChannel, isDm⟩, -⟩ := id holds
      have complete := inv.parties.isComplete member isDm (permitted channel member isChannel isDm)
      rw [isChannel] at complete
      obtain ⟨-, rfl⟩ := answers_db answers
      have sameMembers : (watched.world.store.exec (.insertMessage row)).2.members =
        watched.world.store.members := insertMessage_members watched.world.store row
      intro userId
      rw [Store.IsMember, sameMembers]
      exact inv.parties.hasParties holds complete userId

end Kept

def emptyChat : World := ⟨.empty, 0⟩

def writingTo (target : String) (calls : Nat) : List (Move chatSignature World Operation) :=
  .start (.postSystemMessage ⟨none, some target, .value "hello"⟩) ::
    List.replicate calls (.call 0 succeeding)

theorem emptyChat_settled : emptyChat.Settled countedIds where
  fresh channel member := absurd member (notMem_empty channel)
  membersIn := fun _ _ ⟨member, isIn, _⟩ => absurd isIn (notMem_empty member)
  messagesIn message member := absurd member (notMem_empty message)
  keys first member := absurd member (notMem_empty first)
  keyed channel member := absurd member (notMem_empty channel)
  dms channel member := absurd member (notMem_empty channel)

/-- A second message of the system is stored before the first has made its target a member. -/
theorem not_dmsBelongToParties : ¬DmsBelongToParties (fun _ _ => True) anyStep countedIds id := by
  intro claimed
  obtain ⟨request, answer, before, middle, later, reached, call, run, isFounded, isAlone⟩ :=
    (chatReferee countedIds id Operation.onDirectMessages).exists_call_of_play
      (writingTo "ada" 3) (writingTo "ada" 5) 0 succeeding emptyChat
      (fun request answer => founds request answer = some ("0", ["ada"]))
      (fun world => world.store.messages.rows.any (fun message => message.channelId = "0") &&
        world.store.members.rows.isEmpty)
      (by simp [writingTo]) (by decide +kernel)
  have kept := claimed Operation.onDirectMessages emptyChat (fun _ => id) emptyChat_settled trivial
  rw [Bool.and_eq_true, List.isEmpty_iff] at isAlone
  obtain ⟨message, messageMem, isHere⟩ := any_eq_true.mp isAlone.1
  have hasParties := kept.fixed later "0" ["ada"]
    (.inr ⟨request, answer, before, middle, reached, call, of_decide_eq_true isFounded, run⟩)
    ⟨message, messageMem, of_decide_eq_true isHere⟩
  obtain ⟨member, isMember, -⟩ := (hasParties "ada").mpr (.head _)
  rw [KeyedTable.mem_def, isAlone.2] at isMember
  cases isMember

end DubEcosystem.Chat
