import DubEcosystem.InterleavingProtocols
import DubEcosystem.MailGatewaySend

/-!
# mail-gateway: the protocol of a send

How far a send has come under its key, and how a drain pass goes from row to row.  The
programs of the gateway follow this protocol, so what holds over their runs is proved of
its phases.
-/

namespace DubEcosystem.MailGateway

open Interleaving PortPrograms

/-- How far a send has come. -/
inductive Stage where
  /-- It is about to look its key up. -/
  | looking
  /-- It found nothing, and is about to claim the key. -/
  | unclaimed
  /-- Another claim was there first. -/
  | lost
  /-- It owns the row `id`, and may hand the message over. -/
  | owned (id : String)
  /-- The provider accepted the message, and the row is to be marked. -/
  | accepted (id : String)
  /-- The send failed, and the row is to be marked. -/
  | refused (id : String)
  /-- It has returned, or thrown. -/
  | answered (returned : Bool)

/-- The calls of a send under `key` with this hash, and where their answers lead it. -/
inductive Stage.Leads (key hash : String) (fits : OutboundMail → Prop) :
    Stage → (request : Call) → Except Thrown (Result request) → Stage → Prop
  | goesOn {stage} : Leads key hash fits stage .fault (.ok ()) stage
  | resolves {ids root} : Leads key hash fits .looking (.resolveThreadId ids) (.ok root) .looking
  | lookupFails {thrown} : Leads key hash fits .looking .fault (.error thrown) (.answered false)
  | findsNone : Leads key hash fits .looking (.findSendByKey key) (.ok none) .unclaimed
  | conflicts {existing : SendLogRow} (differs : existing.reqHash ≠ hash) :
      Leads key hash fits .looking (.findSendByKey key) (.ok (some existing)) (.answered false)
  | duplicates {existing : SendLogRow} (same : existing.reqHash = hash)
      (live : existing.status ≠ .failed) :
      Leads key hash fits .looking (.findSendByKey key) (.ok (some existing)) (.answered true)
  | takesUp {existing : SendLogRow} (same : existing.reqHash = hash)
      (failed : existing.status = .failed) :
      Leads key hash fits .looking (.findSendByKey key) (.ok (some existing)) (.owned existing.id)
  | draws {id} : Leads key hash fits .unclaimed .newSendLogId (.ok id) .unclaimed
  | claimFails {thrown} : Leads key hash fits .unclaimed .fault (.error thrown) (.answered false)
  | claims {claim : SendClaim} {count : Nat} (isKey : claim.idempotencyKey = key)
      (isHash : claim.reqHash = hash) (won : count ≠ 0) :
      Leads key hash fits .unclaimed (.insertSendClaim claim) (.ok count) (.owned claim.id)
  | loses {claim : SendClaim} (isKey : claim.idempotencyKey = key) (isHash : claim.reqHash = hash) :
      Leads key hash fits .unclaimed (.insertSendClaim claim) (.ok 0) .lost
  | rereadFails {thrown} : Leads key hash fits .lost .fault (.error thrown) (.answered false)
  | rereads {now : SendLogRow} :
      Leads key hash fits .lost (.findSendByKey key) (.ok (some now)) (.answered true)
  | vanishes : Leads key hash fits .lost (.findSendByKey key) (.ok none) (.answered false)
  | refers {id parent threadId fallback references} :
      Leads key hash fits (.owned id) (.buildReferences parent threadId fallback)
        (.ok references) (.owned id)
  | accepts {id outbound providerMessageId} (isFit : fits outbound) :
      Leads key hash fits (.owned id) (.providerSend key outbound) (.ok providerMessageId)
        (.accepted id)
  | retries {id outbound thrown} :
      Leads key hash fits (.owned id) (.providerSend key outbound) (.error thrown) (.owned id)
  | refuses {id outbound thrown} :
      Leads key hash fits (.owned id) (.providerSend key outbound) (.error thrown) (.refused id)
  | marks {id provider providerMessageId} :
      Leads key hash fits (.accepted id) (.markSendSent id provider providerMessageId) (.ok ())
        (.answered true)
  | markFails {id thrown} : Leads key hash fits (.accepted id) .fault (.error thrown) (.refused id)
  | stamps {now} : Leads key hash fits (.answered true) .now (.ok now) (.answered true)
  | fails {id code} :
      Leads key hash fits (.refused id) (.markSendFailed id code) (.ok ()) (.answered false)
  | failFails {id thrown} :
      Leads key hash fits (.refused id) .fault (.error thrown) (.answered false)

def hashOf (env : Env) (row : ScheduledRow) : String :=
  hashRequest (withArchiveCc (toSendRequest row (env.parked row.id)) env.archiveCc)

/-- The message has the recipients, the subject and the body of the row. -/
structure Carries (row : ScheduledRow) (outbound : OutboundMail) : Prop where
  toAddresses : outbound.toAddresses = row.toAddresses
  cc : outbound.cc = row.cc.getD []
  subject : outbound.subject = row.subject
  textBody : outbound.textBody = row.textBody
  htmlBody : outbound.htmlBody = row.htmlBody.filter fun html => html ≠ ""

inductive Phase where
  /-- A send on its own. -/
  | send (key hash : String) (stage : Stage)
  /-- A drain pass before its claim. -/
  | pass
  /-- A drain pass that is at `row`, with the rows left after it. -/
  | work (row : ScheduledRow) (stage : Stage) (rest : List ScheduledRow)
  /-- The row is marked sent, and its parked files are released. -/
  | closing (row : ScheduledRow) (rest : List ScheduledRow)
  /-- A cancellation or an edit. -/
  | change
  | over

def Phase.turnTo : List ScheduledRow → Phase
  | [] => .over
  | row :: rest => .work row .looking rest

inductive Phase.Leads (env : Env) :
    Phase → (request : Call) → Except Thrown (Result request) → Phase → Prop
  | send {key hash stage request answer after}
      (leads : Stage.Leads key hash (fun _ => True) stage request answer after) :
      Leads env (.send key hash stage) request answer (.send key hash after)
  | goesOn {phase} : Leads env phase .fault (.ok ()) phase
  | claimFails {thrown} : Leads env .pass .fault (.error thrown) .over
  | claims {now limit due} : Leads env .pass (.claimDueScheduled now limit) (.ok due) (.turnTo due)
  | loads {row rest} : Leads env (.work row .looking rest) (.loadScheduledAttachments row.id)
        (.ok (env.parked row.id)) (.work row .looking rest)
  | loadFails {row rest thrown} :
      Leads env (.work row .looking rest) (.loadScheduledAttachments row.id) (.error thrown)
        (.work row (.answered false) rest)
  | resolves {row rest parent owner address} :
      Leads env (.work row .looking rest) (.resolveFromAddress parent owner) (.ok address)
        (.work row .looking rest)
  | work {row stage request answer after rest}
      (leads : Stage.Leads (schedKey row.id) (hashOf env row) (Carries row) stage request
        answer after) :
      Leads env (.work row stage rest) request answer (.work row after rest)
  | marks {row rest messageId} : Leads env (.work row (.answered true) rest)
        (.markScheduledSent row.id messageId (row.attempts + 1)) (.ok ()) (.turnTo rest)
  | closes {row rest messageId} : Leads env (.work row (.answered true) rest)
        (.markScheduledSent row.id messageId (row.attempts + 1)) (.ok ()) (.closing row rest)
  | releases {row rest} :
      Leads env (.closing row rest) (.releaseScheduledAttachments row.id) (.ok ()) (.turnTo rest)
  | markFails {row rest thrown} : Leads env (.work row (.answered true) rest) .fault (.error thrown)
        (.work row (.answered false) rest)
  | attemptFails {row rest code} : Leads env (.work row (.answered false) rest)
        (.markScheduledAttemptFailed row.id code (row.attempts + 1) SCHEDULED_MAX_ATTEMPTS)
        (.ok ()) (.turnTo rest)
  | attemptFailFails {row rest thrown} :
      Leads env (.work row (.answered false) rest) .fault (.error thrown) .over
  | changeFails {thrown} : Leads env .change .fault (.error thrown) .over
  | cancels {id scope changed} : Leads env .change (.cancelScheduled id scope) (.ok changed) .change
  | forgets {id} : Leads env .change (.releaseScheduledAttachments id) (.ok ()) .change
  | edits {id scope patch changed} :
      Leads env .change (.updateScheduled id scope patch) (.ok changed) .change

def Phase.IsFinal : Phase → Prop
  | .send _ _ (.answered _) => True
  | .change => True
  | .over => True
  | _ => False

/-- What the database and the provider may answer. -/
def possible (env : Env) (faults : Bool) : (request : Call) → Except Thrown (Result request) → Prop
  | .fault, .error _ => faults = true
  | .providerSend _ _, _ => True
  | .loadScheduledAttachments id, .ok files => files = env.parked id
  | .loadScheduledAttachments _, .error _ => True
  | _, .ok _ => True
  | _, .error _ => False

def mailProtocol (env : Env) (faults : Bool) : Protocol mailSignature Phase where
  possible := possible env faults
  leads := Phase.Leads env
  final := Phase.IsFinal

def Operation.first : Operation → Phase
  | .send deps rawReq key _ =>
    .send key (hashRequest (withArchiveCc rawReq deps.archiveCc)) .looking
  | .drain _ => .pass
  | .cancel _ _ => .change
  | .edit _ _ _ => .change

variable {env : Env} {faults : Bool}

variable {files : List MailAttachmentInput}

/-- Files that load are those that were parked, and they were not deleted. -/
theorem loadAnswer_eq_ok {world : World} {id : String}
    (loaded : world.loadAnswer env.parked id = .ok files) : files = env.parked id := by
  unfold World.loadAnswer World.loadScheduledAttachments at loaded
  by_cases noFiles : env.parked id = []
  · simp only [noFiles, if_true, Except.ok.injEq] at loaded
    exact loaded.symm.trans noFiles.symm
  · by_cases released : id ∈ world.released
    · simp [noFiles, released] at loaded
    · simp only [noFiles, released, if_false, Except.ok.injEq] at loaded
      exact loaded.symm

theorem loadAnswer_eq_error {world : World} {id : String} {thrown : Thrown}
    (loaded : world.loadAnswer env.parked id = .error thrown) : id ∈ world.released := by
  unfold World.loadAnswer World.loadScheduledAttachments at loaded
  by_contra kept
  by_cases noFiles : env.parked id = []
  · simp [noFiles] at loaded
  · simp [noFiles, kept] at loaded

variable {request : Call}

theorem possible_of_answers {before after : World} {answer : Except Thrown (Result request)}
    (answers : (mailMachine env faults).Answers request before answer after) :
    possible env faults request answer := by
  cases request with
  | fault =>
    cases answer with
    | ok value => trivial
    | error thrown =>
      cases faults with
      | true => rfl
      | false => cases answers
  | providerSend key outbound => trivial
  | loadScheduledAttachments id =>
    cases answer with
    | error thrown => trivial
    | ok files => exact loadAnswer_eq_ok (Prod.mk.inj answers).1
  | _ =>
    cases answer with
    | ok value => trivial
    | error thrown => cases answers

theorem exists_possible (env : Env) (faults : Bool) (request : Call) :
    ∃ answer, possible env faults request answer := by
  cases request with
  | loadScheduledAttachments id => exact ⟨.ok (env.parked id), rfl⟩
  | now | insertSendClaim claim | cancelScheduled id scope | updateScheduled id scope patch =>
    exact ⟨.ok 0, trivial⟩
  | resolveThreadId ids | findSendByKey key => exact ⟨.ok none, trivial⟩
  | newSendLogId | providerSend sentFor outbound | resolveFromAddress parent owner =>
    exact ⟨.ok "", trivial⟩
  | buildReferences parent threadId fallback | claimDueScheduled now limit =>
    exact ⟨.ok [], trivial⟩
  | _ => exact ⟨.ok (), trivial⟩

variable {α : Type} {phase : Phase}

abbrev MailFollows (env : Env) (faults : Bool) (phase : Phase) (action : Mail α)
    (post : Except Thrown α → Phase → Prop) : Prop :=
  Follows (mailProtocol env faults) phase action post

theorem follows_statement {post : Except Thrown (Result request) → Phase → Prop}
    (fails : ∀ thrown, ∃ after, Phase.Leads env phase .fault (.error thrown) after ∧
      post (.error thrown) after)
    (answers : ∀ answer, possible env faults request answer →
      ∃ after, Phase.Leads env phase request answer after ∧ post answer after) :
    MailFollows env faults phase (statement request) post := by
  apply follows_port_bind
  · rintro ⟨⟩ -
    exact ⟨phase, .goesOn, follows_port answers⟩
  · intro thrown _
    exact fails thrown

theorem follows_statement_bind {continuation : Result request → Mail α}
    {post : Except Thrown α → Phase → Prop}
    (fails : ∀ thrown, ∃ after, Phase.Leads env phase .fault (.error thrown) after ∧
      post (.error thrown) after)
    (returns : ∀ result, possible env faults request (.ok result) →
      ∃ after, Phase.Leads env phase request (.ok result) after ∧
        MailFollows env faults after (continuation result) post)
    (throws : ∀ thrown, possible env faults request (.error thrown) →
      ∃ after, Phase.Leads env phase request (.error thrown) after ∧ post (.error thrown) after) :
    MailFollows env faults phase (statement request >>= continuation) post := by
  apply follows_bind
  apply follows_statement
  · exact fails
  · rintro (thrown | result) isPossible
    · exact throws thrown isPossible
    · exact returns result isPossible

section Send

/-- The stages of a send are phases of the operation that it is part of. -/
def Embeds (env : Env) (key hash : String) (fits : OutboundMail → Prop)
    (embed : Stage → Phase) : Prop :=
  ∀ {stage request answer after}, Stage.Leads key hash fits stage request answer after →
    Phase.Leads env (embed stage) request answer (embed after)

variable {key hash : String} {fits : OutboundMail → Prop} {embed : Stage → Phase}
  (embeds : Embeds env key hash fits embed)

def Ends (embed : Stage → Phase) : Except Thrown α → Phase → Prop
  | .ok _, after => after = embed (.answered true)
  | .error _, after => after = embed (.answered false)

include embeds

section

variable {outbound : OutboundMail} (isFit : fits outbound)
include isFit

variable {id : String}

theorem retrying_follows (left : Nat) : MailFollows env faults (embed (.owned id))
      (retrying (ask (.providerSend key outbound)) left) fun
        | .ok _, after => after = embed (.accepted id)
        | .error _, after => after = embed (.refused id) := by
  induction left with
  | zero =>
    apply follows_port
    rintro (thrown | result) -
    · exact ⟨_, embeds .refuses, rfl⟩
    · exact ⟨_, embeds (.accepts isFit), rfl⟩
  | succ left ih =>
    apply follows_attempt_bind
    apply follows_port
    rintro (thrown | result) -
    · by_cases again : isRetryable thrown = true
      · refine ⟨_, embeds .retries, ?_⟩
        simp only [again, if_true]
        exact ih
      · refine ⟨_, embeds .refuses, ?_⟩
        simp only [again]
        exact follows_throw rfl
    · exact ⟨_, embeds (.accepts isFit), follows_pure rfl⟩

theorem handOver_follows {deps : SendDeps} :
    MailFollows env faults (embed (.owned id)) (handOver deps key id outbound) fun
      | .ok _, after => after = embed (.answered true)
      | .error _, after => after = embed (.refused id) := by
  apply follows_bind
  apply (retrying_follows embeds isFit _).mono
  rintro (thrown | messageId) after rfl
  · rfl
  · apply follows_statement_bind
    · exact fun thrown => ⟨_, embeds .markFails, rfl⟩
    · rintro ⟨⟩ -
      refine ⟨_, embeds .marks, ?_⟩
      apply follows_port_bind
      · intro now _
        exact ⟨_, embeds .stamps, follows_pure rfl⟩
      · exact fun _ => False.elim
    · exact fun _ => False.elim

theorem follows_handedOver {deps : SendDeps} : MailFollows env faults (embed (.owned id)) (do
      match ← attempt (handOver deps key id outbound) with
      | .ok result => pure result
      | .error err => do
        statement (.markSendFailed id (codeOf err))
        throw { err with code := some (codeOf err) }) (Ends embed) := by
  apply follows_attempt_bind
  apply (handOver_follows embeds isFit).mono
  rintro (thrown | result) after rfl
  · apply follows_statement_bind
    · exact fun thrown => ⟨_, embeds .failFails, rfl⟩
    · rintro ⟨⟩ -
      exact ⟨_, embeds .fails, follows_throw rfl⟩
    · exact fun _ => False.elim
  · exact follows_pure rfl

end

theorem deliver_follows {deps : SendDeps} {rawReq req : SendMailRequest}
    {threadId : Option String} {id : String}
    (isFit : ∀ messageId references, fits (outboundOf deps rawReq req messageId references)) :
    MailFollows env faults (embed (.owned id)) (deliver deps rawReq req key threadId id)
      (Ends embed) := by
  unfold deliver
  cases req.parent with
  | none => exact follows_handedOver embeds (isFit _ _)
  | some parent =>
    apply follows_port_bind
    · intro references _
      exact ⟨_, embeds .refers, follows_handedOver embeds (isFit _ _)⟩
    · exact fun _ => False.elim

theorem sendMail_follows {deps : SendDeps} {rawReq : SendMailRequest} {requester : String}
    (isHash : hashRequest (withArchiveCc rawReq deps.archiveCc) = hash)
    (isFit : ∀ messageId references, fits
      (outboundOf deps rawReq (withArchiveCc rawReq deps.archiveCc) messageId references)) :
    MailFollows env faults (embed .looking) (sendMail deps rawReq key requester) (Ends embed) := by
  unfold sendMail
  simp only []
  apply follows_bind
  have resolved : MailFollows env faults (embed .looking)
      (resolveThread (withArchiveCc rawReq deps.archiveCc)) fun outcome after =>
        (∃ threadId, outcome = .ok threadId) ∧ after = embed .looking := by
    unfold resolveThread
    cases (withArchiveCc rawReq deps.archiveCc).parent with
    | none => exact follows_pure ⟨⟨none, rfl⟩, rfl⟩
    | some parent =>
      apply follows_port_bind
      · intro root _
        exact ⟨_, embeds .resolves, follows_pure ⟨⟨_, rfl⟩, rfl⟩⟩
      · exact fun _ => False.elim
  apply resolved.mono
  rintro _ _ ⟨⟨threadId, rfl⟩, rfl⟩
  apply follows_statement_bind
  · exact fun thrown => ⟨_, embeds .lookupFails, rfl⟩
  · rintro (- | existing) -
    · refine ⟨_, embeds .findsNone, ?_⟩
      apply follows_port_bind
      · intro id _
        refine ⟨_, embeds .draws, ?_⟩
        apply follows_statement_bind
        · exact fun thrown => ⟨_, embeds .claimFails, rfl⟩
        · intro claimed _
          cases claimed with
          | zero =>
            refine ⟨_, embeds (.loses rfl isHash), ?_⟩
            apply follows_statement_bind
            · exact fun thrown => ⟨_, embeds .rereadFails, rfl⟩
            · rintro (- | now) -
              · exact ⟨_, embeds .vanishes, follows_throw rfl⟩
              · exact ⟨_, embeds .rereads, follows_pure rfl⟩
            · exact fun _ => False.elim
          | succ count =>
            exact ⟨_, embeds (.claims rfl isHash (Nat.succ_ne_zero count)),
              deliver_follows embeds isFit⟩
        · exact fun _ => False.elim
      · exact fun _ => False.elim
    · by_cases differs : existing.reqHash ≠ hashRequest (withArchiveCc rawReq deps.archiveCc)
      · refine ⟨_, embeds (.conflicts (isHash ▸ differs)), ?_⟩
        simp only []
        rw [if_pos differs]
        exact follows_throw rfl
      · have same : existing.reqHash = hash := (not_not.mp differs).trans isHash
        by_cases live : existing.status = .sent ∨ existing.status = .pending
        · have notFailed : existing.status ≠ .failed := by
            rcases live with isSent | isPending
            · simp [isSent]
            · simp [isPending]
          refine ⟨_, embeds (.duplicates same notFailed), ?_⟩
          simp only []
          rw [if_neg differs, if_pos live]
          exact follows_pure rfl
        · have isFailed : existing.status = .failed := by
            cases status : existing.status <;> simp_all
          refine ⟨_, embeds (.takesUp same isFailed), ?_⟩
          simp only []
          rw [if_neg differs, if_neg live]
          exact deliver_follows embeds isFit
  · exact fun _ => False.elim

end Send

variable {row : ScheduledRow} {rest : List ScheduledRow}

/-- A row's request hashes to the row's hash, and what is sent for it carries the row. -/
theorem carries_outboundOf {deps : SendDeps} (messageId : String) (references : List String) :
    Carries row (outboundOf deps (toSendRequest row files)
      (withArchiveCc (toSendRequest row files) deps.archiveCc) messageId references) := by
  have kept : ∀ req : SendMailRequest,
      (withArchiveCc req deps.archiveCc).toAddresses = req.toAddresses ∧
        (withArchiveCc req deps.archiveCc).subject = req.subject ∧
          (withArchiveCc req deps.archiveCc).textBody = req.textBody ∧
            (withArchiveCc req deps.archiveCc).htmlBody = req.htmlBody := by
    intro req
    unfold withArchiveCc
    cases deps.archiveCc with
    | none => exact ⟨rfl, rfl, rfl, rfl⟩
    | some archive =>
      simp only []
      split
      · exact ⟨rfl, rfl, rfl, rfl⟩
      · split <;> exact ⟨rfl, rfl, rfl, rfl⟩
  obtain ⟨toAddresses, subject, textBody, htmlBody⟩ := kept (toSendRequest row files)
  refine ⟨toAddresses, ?_, subject, textBody, htmlBody⟩
  have visible := splitArchive_cc (toSendRequest row files) deps.archiveCc
  have cc : (row.cc.filter fun cc => cc ≠ []).getD [] = row.cc.getD [] := by
    cases row.cc with
    | none => rfl
    | some addresses =>
      by_cases noCc : addresses = []
      · simp [Option.filter, noCc]
      · simp [Option.filter, noCc]
  exact visible.trans cc

theorem attemptRow_follows :
    MailFollows env faults (.work row .looking rest) (attemptRow env row) fun
      | .ok _, after => after = .turnTo rest
      | .error _, after => after = .work row (.answered false) rest := by
  have embeds : Embeds env (schedKey row.id) (hashOf env row) (Carries row)
      fun stage => .work row stage rest := fun leads => .work leads
  have afterwards : ∀ fromAddress, MailFollows env faults (.work row .looking rest) (do
      let result ← sendMail (buildSendDeps env fromAddress row.ownerUserId)
        (toSendRequest row (env.parked row.id)) (schedKey row.id)
        (row.ownerUserId.getD SERVICE_NAME)
      statement (.markScheduledSent row.id result.response.messageId (row.attempts + 1))
      if env.parked row.id = [] then pure () else ask (.releaseScheduledAttachments row.id)) fun
        | .ok _, after => after = .turnTo rest
        | .error _, after => after = .work row (.answered false) rest := by
    intro fromAddress
    have isHash : hashRequest (withArchiveCc (toSendRequest row (env.parked row.id))
        (buildSendDeps env fromAddress row.ownerUserId).archiveCc) = hashOf env row := rfl
    apply follows_bind
    apply (sendMail_follows embeds isHash carries_outboundOf).mono
    rintro (thrown | result) after rfl
    · rfl
    · by_cases noFiles : env.parked row.id = []
      · simp only [noFiles, if_true]
        apply follows_statement_bind
        · exact fun thrown => ⟨_, .markFails, rfl⟩
        · rintro ⟨⟩ -
          exact ⟨_, .marks, follows_pure rfl⟩
        · exact fun _ => False.elim
      · simp only [noFiles, if_false]
        apply follows_statement_bind
        · exact fun thrown => ⟨_, .markFails, rfl⟩
        · rintro ⟨⟩ -
          refine ⟨_, .closes, ?_⟩
          apply follows_port
          rintro (thrown | ⟨⟩) isPossible
          · exact isPossible.elim
          · exact ⟨_, .releases, rfl⟩
        · exact fun _ => False.elim
  unfold attemptRow
  apply follows_statement_bind
  · exact fun thrown => ⟨_, .work .lookupFails, rfl⟩
  · rintro files rfl
    refine ⟨_, .loads, ?_⟩
    cases row.fromAddress with
    | some address => exact afterwards address
    | none =>
      apply follows_port_bind
      · intro address _
        exact ⟨_, .resolves, afterwards address⟩
      · exact fun _ => False.elim
  · exact fun thrown _ => ⟨_, .loadFails, rfl⟩

theorem drainRows_follows (rows : List ScheduledRow) (out : ScheduledDrainResult) :
    MailFollows env faults (.turnTo rows) (drainRows env rows out) fun _ after =>
      after = .over := by
  induction rows generalizing out with
  | nil => exact follows_pure rfl
  | cons row rest ih =>
    apply follows_attempt_bind
    apply attemptRow_follows.mono
    rintro (thrown | ⟨⟩) after rfl
    · apply follows_statement_bind
      · exact fun thrown => ⟨_, .attemptFailFails, rfl⟩
      · rintro ⟨⟩ -
        refine ⟨_, .attemptFails, ?_⟩
        split
        · exact ih _
        · exact ih _
      · exact fun _ => False.elim
    · exact ih _

theorem action_follows (op : Operation) :
    MailFollows env faults op.first (op.action env) fun _ => Phase.IsFinal := by
  cases op with
  | send deps rawReq key requester =>
    have embeds : Embeds env key (hashRequest (withArchiveCc rawReq deps.archiveCc))
        (fun _ => True) (.send key (hashRequest (withArchiveCc rawReq deps.archiveCc))) :=
      fun leads => .send leads
    apply follows_bind
    apply (sendMail_follows embeds rfl fun _ _ => trivial).mono
    rintro (thrown | result) after rfl
    · trivial
    · exact follows_pure trivial
  | drain now =>
    apply follows_bind
    have drained : MailFollows env faults .pass (runScheduledSendDrain env now) fun _ after =>
        after = .over := by
      apply follows_statement_bind
      · exact fun thrown => ⟨_, .claimFails, rfl⟩
      · exact fun due _ => ⟨_, .claims, drainRows_follows due _⟩
      · exact fun _ => False.elim
    apply drained.mono
    rintro (thrown | result) after rfl
    · trivial
    · exact follows_pure trivial
  | cancel id scope =>
    apply follows_statement_bind
    · exact fun thrown => ⟨_, .changeFails, trivial⟩
    · intro changed _
      refine ⟨_, .cancels, ?_⟩
      split
      · exact follows_pure trivial
      · apply follows_port
        rintro (thrown | ⟨⟩) isPossible
        · exact isPossible.elim
        · exact ⟨_, .forgets, trivial⟩
    · exact fun _ => False.elim
  | edit id scope patch =>
    apply follows_statement_bind
    · exact fun thrown => ⟨_, .changeFails, trivial⟩
    · exact fun changed _ => ⟨_, .edits, follows_pure trivial⟩
    · exact fun _ => False.elim

theorem gateway_governed (env : Env) (faults : Bool) (startable : Operation → Prop) :
    (mailProtocol env faults).Governs (gateway env faults startable) Operation.first where
  program op _ _ := by
    have follows := @action_follows env faults op
    unfold MailFollows Follows at follows
    apply Protocol.followsTo_bind
    exact follows
  possible := possible_of_answers

end DubEcosystem.MailGateway
