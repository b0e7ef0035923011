import DubEcosystem.IdentityRosterGrants
import DubEcosystem.SequentialHistories

/-!
# identity-roster: retired accounts

`syncEmailRouting` re-enables an account whose row is disabled and marked
`email-routing`, taking it for one that it disabled itself.  The row does not say who
disabled it, so the writes of the status are recorded here, and who was retired by
hand is read off that history.
-/

namespace DubEcosystem.IdentityRoster

open PortPrograms SequentialPrograms List KeyedTable

inductive StatusEvent where
  | byHand (userId : String) (status : UserStatus)
  | syncSet (userId : String) (status : UserStatus)
  | syncCreated (userId : String) (status : UserStatus)
  deriving DecidableEq

/-- The statuses that `updateUser`, `offboardUser`, `provision` and
`activateInvited` write. -/
def handEvents : (call : Call) → Except Thrown (Result call) → List StatusEvent
  | .updateUser userId patch _, .ok _ => patch.status.toList.map (.byHand userId)
  | .activateIfInvited userId _, .ok activated =>
    if activated then [.byHand userId .active] else []
  | _, _ => []

/-- The statuses that `syncEmailRouting` writes. -/
def syncEvents : (call : Call) → Except Thrown (Result call) → List StatusEvent
  | .updateUser userId patch _, .ok _ => patch.status.toList.map (.syncSet userId)
  | .createUser row, .ok _ => [.syncCreated row.id row.status]
  | _, _ => []

def noEvents : (call : Call) → Except Thrown (Result call) → List StatusEvent :=
  fun _ _ => []

def statusEvents : Op → (call : Call) → Except Thrown (Result call) → List StatusEvent
  | .updateUser _ _ _ _ => handEvents
  | .offboardUser _ _ _ => handEvents
  | .provision _ _ _ => handEvents
  | .activateInvited _ _ _ _ => handEvents
  | .syncEmailRouting _ _ _ => syncEvents
  | _ => noEvents

def lastByHand (userId : String) : List StatusEvent → Option UserStatus
  | [] => none
  | .byHand id status :: earlier =>
    if id = userId then some status else lastByHand userId earlier
  | _ :: earlier => lastByHand userId earlier

def Retired (history : List StatusEvent) (userId : String) : Prop :=
  ∃ status, lastByHand userId history = some status ∧ status ≠ .active

def SyncDisabled (history : List StatusEvent) (userId : String) : Prop :=
  .syncSet userId .disabled ∈ history ∨ .syncCreated userId .disabled ∈ history

def OnlyOwnReactivations (history : List StatusEvent) : Prop :=
  ∀ later earlier userId, history = later ++ .syncSet userId .active :: earlier →
    ¬Retired earlier userId ∧ SyncDisabled earlier userId

def priorEvent (user : UserRow) : StatusEvent :=
  match user.source with
  | .emailRouting => .syncSet user.id .disabled
  | .manual => .byHand user.id .disabled

def Store.priorHistory (store : Store) : List StatusEvent :=
  (store.users.rows.filter fun user => user.status = .disabled).map priorEvent

/-- From any store, no session of allowed operations lets a sync re-enable a retired
account. -/
def NeverReenablesRetired (toLowerCase : String → String)
    (allowed : Op → Store × List StatusEvent → Prop) : Prop :=
  ∀ start final history, (identityService toLowerCase).RecordedSession statusEvents allowed
      (start, start.priorHistory) (final, history) → OnlyOwnReactivations history

/-- No sync lists, as enabled, the address of a retired account whose row is disabled
and marked `email-routing`. -/
def Op.SparesRetired (toLowerCase : String → String) : Op → Store × List StatusEvent → Prop
  | .syncEmailRouting orgId req _, (store, history) =>
    (store.orgs.find? orgId).isSome = true → ∀ normalized,
      normalizeRoutingAddresses toLowerCase req = .ok normalized → ∀ address ∈ normalized, ∀ user,
          store.getUserByEmail orgId address.email = some user →
            reactivates address user = true → ¬Retired history user.id
  | _, _ => True

variable {history events : List StatusEvent} {userId : String}

variable {status : UserStatus}

theorem lastByHand_cons_other {id : String} (apart : id ≠ userId) :
    lastByHand userId (.byHand id status :: history) = lastByHand userId history := by
  simp [lastByHand, apart]

theorem retired_cons_byHand (inactive : status ≠ .active) :
    Retired (.byHand userId status :: history) userId :=
  ⟨status, by simp [lastByHand], inactive⟩

theorem retired_of_mem (member : .byHand userId status ∈ history)
    (inactive : ∀ status, .byHand userId status ∈ history → status ≠ .active) :
    Retired history userId := by
  induction history with
  | nil => cases member
  | cons event earlier ih =>
    have later : ∀ status, .byHand userId status ∈ earlier → status ≠ .active := by
      intro status isEarlier
      exact inactive status (mem_cons_of_mem event isEarlier)
    cases event with
    | byHand id given =>
      by_cases same : id = userId
      · subst same
        exact retired_cons_byHand (inactive given (.head _))
      · have isEarlier : StatusEvent.byHand userId status ∈ earlier := by
          rcases mem_cons.mp member with first | isEarlier
          · cases first
            exact (same rfl).elim
          · exact isEarlier
        obtain ⟨last, lastEq, isInactive⟩ := ih isEarlier later
        exact ⟨last, (lastByHand_cons_other same).trans lastEq, isInactive⟩
    | syncSet id given | syncCreated id given => exact ih (by simpa using member) later

theorem SyncDisabled.append (disabled : SyncDisabled history userId) :
    SyncDisabled (events ++ history) userId := by
  rcases disabled with set | created
  · exact Or.inl (mem_append_right events set)
  · exact Or.inr (mem_append_right events created)

theorem SyncDisabled.cons {event : StatusEvent} (disabled : SyncDisabled history userId) :
    SyncDisabled (event :: history) userId :=
  @SyncDisabled.append _ [event] _ disabled

theorem OnlyOwnReactivations.cons {event : StatusEvent} (own : OnlyOwnReactivations history)
    (legitimate : ∀ userId, event = .syncSet userId .active →
      ¬Retired history userId ∧ SyncDisabled history userId) :
    OnlyOwnReactivations (event :: history) := by
  intro later earlier userId split
  cases later with
  | nil =>
    cases split
    exact legitimate userId rfl
  | cons first later =>
    obtain ⟨-, rest⟩ := List.cons.inj split
    exact own later earlier userId rest

theorem OnlyOwnReactivations.append (own : OnlyOwnReactivations history)
    (noReactivation : ∀ userId, .syncSet userId .active ∉ events) :
    OnlyOwnReactivations (events ++ history) := by
  induction events with
  | nil => exact own
  | cons event events ih =>
    have rest : ∀ userId, .syncSet userId .active ∉ events := by
      intro userId member
      exact noReactivation userId (mem_cons_of_mem event member)
    apply (ih rest).cons
    rintro userId rfl
    exact (noReactivation userId (.head _)).elim

def Accounted (world : Store × List StatusEvent) : Prop :=
  ∀ user ∈ world.1.users, user.status = .disabled →
    Retired world.2 user.id ∨ SyncDisabled world.2 user.id

structure Recorded (world : Store × List StatusEvent) : Prop where
  accounted : Accounted world
  own : OnlyOwnReactivations world.2

theorem accounted_priorHistory (start : Store) : Accounted (start, start.priorHistory) := by
  intro user member isDisabled
  have listed : user ∈ start.users.rows.filter fun user => user.status = .disabled :=
    mem_filter.mpr ⟨member, by simp [isDisabled]⟩
  cases source : user.source with
  | emailRouting =>
    right
    left
    exact List.mem_map.mpr ⟨user, listed, by simp [priorEvent, source]⟩
  | manual =>
    left
    apply retired_of_mem (List.mem_map.mpr ⟨user, listed, by rw [priorEvent, source]⟩)
    intro status member
    obtain ⟨other, -, isEvent⟩ := List.mem_map.mp member
    unfold priorEvent at isEvent
    split at isEvent
    · cases isEvent
    · injection isEvent with sameId sameStatus
      rw [← sameStatus]
      exact nofun

theorem recorded_priorHistory (start : Store) : Recorded (start, start.priorHistory) := by
  constructor
  · exact accounted_priorHistory start
  · have none : OnlyOwnReactivations [] := by
      intro later earlier userId split
      cases later with
      | nil | cons first later => cases split
    rw [← append_nil (start.priorHistory)]
    apply none.append
    intro userId member
    obtain ⟨user, -, isEvent⟩ := List.mem_map.mp member
    unfold priorEvent at isEvent
    split at isEvent
    · cases isEvent
    · cases isEvent

theorem eq_of_rejected {call : Call} {before after : Store} {thrown : Thrown}
    (answers : rosterMachine.Answers call before (.error thrown) after) :
    after = before := by
  have ofCommit : ∀ written : Option Store,
      before.commit written = (.error thrown, after) → after = before := by
    intro written commits
    cases written with
    | none => exact (congrArg Prod.snd commits).symm
    | some final => cases congrArg Prod.fst commits
  cases call with
  | createUser row | updateUser userId patch updatedAt | createRole row targets
  | updateRolePermissions roleId name permissions updatedAt targets | createAssignment row =>
    exact ofCommit _ answers
  | now | newId kind | logSync record | publish record | revokeUser userId ctx => exact answers
  | _ => cases congrArg Prod.fst answers

def Call.WritesUser : Call → Prop
  | .createUser _ => True
  | .updateUser _ _ _ => True
  | .activateIfInvited _ _ => True
  | _ => False

theorem Move.users_eq {call : Call} {before after : Store} (move : Move call before after)
    (spares : ¬call.WritesUser) : after.users = before.users := by
  cases move with
  | createUser inserted | updateUser | activateIfInvited => exact (spares trivial).elim
  | _ => rfl

section Answers

variable {before after : Store} {updatedAt : String} {patch : UserPatch}

section

variable
  (answers : rosterMachine.Answers (.updateUser userId patch updatedAt) before (.ok ()) after)
include answers

theorem eq_of_updateUser :
    after = { before with
      users := before.users.update (fun row => row.id = userId)
        (fun row => row.patched patch updatedAt) fun row =>
          row.patched_id patch updatedAt } := by
  have commits : before.commit (before.updateUser userId patch updatedAt) =
      (.ok (), after) := answers
  unfold Store.updateUser at commits
  split at commits
  · cases congrArg Prod.fst commits
  · exact (congrArg Prod.snd commits).symm

theorem users_of_updateUser {user : UserRow} (member : user ∈ after.users) :
    ∃ old ∈ before.users, user = if old.id = userId then old.patched patch updatedAt else old := by
  rw [eq_of_updateUser answers] at member
  simp only [mem_update, decide_eq_true_eq] at member
  obtain ⟨old, oldMem, rfl⟩ := member
  exact ⟨old, oldMem, rfl⟩

omit answers in
theorem users_of_createUser {row : UserRow}
    (answers : rosterMachine.Answers (.createUser row) before (.ok ()) after)
    {user : UserRow} (member : user ∈ after.users) :
    user ∈ before.users ∨ user = row := by
  rcases (move_of_answers answers).mem_user member with old | ⟨old, oldMem, rfl⟩ | created
  · exact Or.inl old
  · exact Or.inl oldMem
  · injection created with same
    exact Or.inr same.symm

theorem accounted_of_updateUser {event : String → UserStatus → StatusEvent}
    (explains : ∀ history userId, Retired (event userId .disabled :: history) userId ∨
      SyncDisabled (event userId .disabled :: history) userId)
    (frame : ∀ history userId other status, other ≠ userId → Retired history other →
      Retired (event userId status :: history) other) (accounted : Accounted (before, history)) :
    Accounted (after, patch.status.toList.map (event userId) ++ history) := by
  intro user member isDisabled
  obtain ⟨old, oldMem, rfl⟩ := users_of_updateUser answers member
  by_cases same : old.id = userId
  · rw [if_pos same] at isDisabled ⊢
    rw [UserRow.patched_status] at isDisabled
    rw [UserRow.patched_id, same]
    cases status : patch.status with
    | none =>
      rw [status] at isDisabled
      rw [← same]
      exact accounted old oldMem isDisabled
    | some given =>
      rw [status] at isDisabled
      cases isDisabled
      exact explains history userId
  · rw [if_neg same] at isDisabled ⊢
    cases patch.status with
    | none => exact accounted old oldMem isDisabled
    | some given =>
      rcases accounted old oldMem isDisabled with retired | disabled
      · exact Or.inl (frame history userId old.id given same retired)
      · exact Or.inr disabled.cons

omit answers in
theorem Retired.frame_byHand {other : String}
    (apart : other ≠ userId) (retired : Retired history other) :
    Retired (.byHand userId status :: history) other := by
  obtain ⟨last, lastEq, inactive⟩ := retired
  exact ⟨last, (lastByHand_cons_other apart.symm).trans lastEq, inactive⟩

theorem recorded_of_handUpdate (recorded : Recorded (before, history)) :
    Recorded (after, patch.status.toList.map (.byHand userId) ++ history) := by
  constructor
  · apply accounted_of_updateUser answers ?_ ?_ recorded.accounted
    · intro history userId
      exact Or.inl (retired_cons_byHand nofun)
    · intro history userId other status apart retired
      exact retired.frame_byHand apart
  · apply recorded.own.append
    intro id member
    obtain ⟨status, -, isEvent⟩ := List.mem_map.mp member
    cases isEvent

end

theorem recorded_of_activateIfInvited {activated : Bool}
    (answers : rosterMachine.Answers (.activateIfInvited userId updatedAt) before
      (.ok activated) after) (recorded : Recorded (before, history)) :
    Recorded (after, (if activated then [.byHand userId .active] else []) ++ history) := by
  have executed : (Except.ok (before.isInvited userId),
      before.activateIfInvited userId updatedAt) = (.ok activated, after) := answers
  injection executed with sameAnswer sameAfter
  injection sameAnswer with sameActivated
  subst sameActivated sameAfter
  constructor
  · intro user member isDisabled
    simp only [Store.activateIfInvited, mem_update, decide_eq_true_eq] at member
    obtain ⟨old, oldMem, rfl⟩ := member
    by_cases chosen : old.id = userId ∧ old.status = .invited
    · rw [if_pos chosen] at isDisabled
      cases isDisabled
    · rw [if_neg chosen] at isDisabled ⊢
      have earlier := recorded.accounted old oldMem isDisabled
      by_cases same : old.id = userId
      · -- the row is the disabled one, so nobody was activated
        have notInvited : before.isInvited userId = false := by
          rw [Store.isInvited, find?_eq_some.mpr ⟨oldMem, same⟩]
          simp [isDisabled]
        rw [notInvited]
        exact earlier
      · split
        · rcases earlier with retired | disabled
          · exact Or.inl (retired.frame_byHand same)
          · exact Or.inr disabled.append
        · exact earlier
  · apply recorded.own.append
    intro id member
    split at member
    · cases mem_singleton.mp member
    · cases member

variable {call : Call} {answer : Except Thrown (Result call)}

theorem recorded_of_spares (spares : ¬call.WritesUser)
    (answers : rosterMachine.Answers call before answer after)
    (recorded : Recorded (before, history)) : Recorded (after, history) := by
  have sameUsers : after.users = before.users :=
    (move_of_answers answers).users_eq spares
  constructor
  · intro user member isDisabled
    exact recorded.accounted user (sameUsers ▸ member) isDisabled
  · exact recorded.own

theorem handEvents_of_spares (spares : ¬call.WritesUser) : handEvents call answer = [] := by
  cases call with
  | updateUser userId patch updatedAt | activateIfInvited userId updatedAt =>
    exact (spares trivial).elim
  | _ => rfl

theorem syncEvents_of_spares (spares : ¬call.WritesUser) : syncEvents call answer = [] := by
  cases call with
  | createUser row | updateUser userId patch updatedAt => exact (spares trivial).elim
  | _ => rfl

variable {op : Op}

theorem statusEvents_of_spares (spares : ¬call.WritesUser) : statusEvents op call answer = [] := by
  cases op with
  | updateUser userId orgId req ctx | offboardUser userId orgId ctx | provision orgId req ctx
  | activateInvited userId orgId req ctx =>
    exact handEvents_of_spares spares
  | syncEmailRouting orgId req ctx => exact syncEvents_of_spares spares
  | _ => rfl

variable {thrown : Thrown}

theorem handEvents_of_rejected : handEvents call (.error thrown) = [] := by
  cases call with
  | _ => rfl

theorem syncEvents_of_rejected : syncEvents call (.error thrown) = [] := by
  cases call with
  | _ => rfl

theorem statusEvents_of_rejected : statusEvents op call (.error thrown) = [] := by
  cases op with
  | updateUser userId orgId req ctx | offboardUser userId orgId ctx | provision orgId req ctx
  | activateInvited userId orgId req ctx =>
    exact handEvents_of_rejected
  | syncEmailRouting orgId req ctx => exact syncEvents_of_rejected
  | _ => rfl

def Op.IsSync : Op → Prop
  | .syncEmailRouting _ _ _ => True
  | _ => False

theorem recorded_of_mayIssue (notSync : ¬op.IsSync) (issued : op.MayIssue call)
    (answers : rosterMachine.Answers call before answer after)
    (recorded : Recorded (before, history)) :
    Recorded (after, statusEvents op call answer ++ history) := by
  cases answer with
  | error thrown =>
    rw [statusEvents_of_rejected, eq_of_rejected answers]
    exact recorded
  | ok result =>
    by_cases writesUser : call.WritesUser
    · have writes : op.Writes call := by
        rcases issued with quiet | writes
        · cases call with
          | createUser row | updateUser userId patch updatedAt
          | activateIfInvited userId updatedAt =>
            exact quiet.elim
          | _ => exact writesUser.elim
        · exact writes
      cases call with
      | createUser row =>
        cases op with
        | invite orgId req ctx =>
          constructor
          · intro user member isDisabled
            rcases users_of_createUser answers member with old | rfl
            · exact recorded.accounted user old isDisabled
            · rw [writes.2.1] at isDisabled
              cases isDisabled
          · exact recorded.own
        | syncEmailRouting orgId req ctx => exact (notSync trivial).elim
        | _ => exact writes.elim
      | updateUser userId patch updatedAt =>
        have byHand := recorded_of_handUpdate answers recorded
        cases op with
        | updateUser id orgId req ctx | offboardUser id orgId ctx | provision orgId req ctx =>
          exact byHand
        | updateOwnProfile id orgId req ctx =>
          rw [writes.2.1] at byHand
          exact byHand
        | syncEmailRouting orgId req ctx => exact (notSync trivial).elim
        | _ => exact writes.elim
      | activateIfInvited userId updatedAt =>
        cases op with
        | activateInvited id orgId req ctx =>
          exact recorded_of_activateIfInvited answers recorded
        | _ => exact writes.elim
      | _ => exact writesUser.elim
    · rw [statusEvents_of_spares writesUser]
      exact recorded_of_spares writesUser answers recorded

end Answers

variable {toLowerCase : String → String} {orgId : String} {world : Store × List StatusEvent}

abbrev syncRecorder : Interleaving.Machine (rosterPorts.signature Thrown)
    (Store × List StatusEvent) :=
  recording rosterMachine syncEvents

def Call.ReactivatesOwn (call : Call) (world : Store × List StatusEvent) : Prop :=
  match call with
  | .updateUser userId patch _ => patch.status = some .active →
      ¬Retired world.2 userId ∧ ∃ user ∈ world.1.users, user.id = userId ∧ user.status = .disabled
  | _ => True

theorem sound_recorded : Sound syncRecorder Call.ReactivatesOwn Recorded := by
  rintro call ⟨before, history⟩ answer ⟨after, later⟩ recorded own answers
  obtain ⟨answered, rfl⟩ := recording_answers.mp answers
  simp only [] at answered ⊢
  cases answer with
  | error thrown =>
    rw [syncEvents_of_rejected, eq_of_rejected answered]
    exact recorded
  | ok result =>
    cases call with
    | createUser row =>
      constructor
      · intro user member isDisabled
        rcases users_of_createUser answered member with old | rfl
        · rcases recorded.accounted user old isDisabled with retired | disabled
          · exact Or.inl retired
          · exact Or.inr disabled.cons
        · right
          right
          rw [← isDisabled]
          exact .head _
      · exact recorded.own.cons nofun
    | updateUser userId patch updatedAt =>
      have ownAfter : OnlyOwnReactivations
          (patch.status.toList.map (.syncSet userId) ++ history) := by
        cases status : patch.status with
        | none => exact recorded.own
        | some given =>
          apply OnlyOwnReactivations.cons recorded.own
          intro id isEvent
          injection isEvent with sameId isActive
          subst sameId isActive
          obtain ⟨notRetired, user, member, rfl, isDisabled⟩ := own status
          exact ⟨notRetired, (recorded.accounted user member isDisabled).resolve_left notRetired⟩
      refine ⟨?_, ownAfter⟩
      apply accounted_of_updateUser answered ?_ ?_ recorded.accounted
      · intro history userId
        exact Or.inr (Or.inl (.head _))
      · intro history userId other status apart retired
        exact retired
    | activateIfInvited userId updatedAt =>
      have moved : before.activateIfInvited userId updatedAt = after :=
        congrArg Prod.snd answered
      subst moved
      constructor
      · intro user member isDisabled
        simp only [Store.activateIfInvited, mem_update] at member
        obtain ⟨old, oldMem, rfl⟩ := member
        split at isDisabled
        · cases isDisabled
        · rename_i kept
          rw [if_neg kept]
          exact recorded.accounted old oldMem isDisabled
      · exact recorded.own
    | _ => exact recorded_of_spares id answered recorded

/-- The addresses of a sync are distinct also for the comparison of the database. -/
structure RoutingNormal (addresses : List RoutingAddress) : Prop where
  distinct : (addresses.map RoutingAddress.email).Nodup
  lower : ∀ address ∈ addresses, address.email.toLower = address.email

theorem routingNormal_addAddress (lowers : ∀ text, (toLowerCase text).toLower = toLowerCase text)
    {out added : List RoutingAddress} {a : EmailRoutingAddressInput}
    (normal : RoutingNormal out) (adds : addAddress toLowerCase out a = .ok added) :
    RoutingNormal added := by
  unfold addAddress at adds
  split at adds
  · cases adds
  · rename_i email accepted
    split at adds
    · cases adds
      exact normal
    · rename_i fresh
      cases adds
      constructor
      · rw [map_append, nodup_append]
        refine ⟨normal.distinct, by simp, ?_⟩
        rintro other listed _ isNew rfl
        simp only [map_cons, map_nil, mem_singleton] at isNew
        exact fresh (isNew ▸ listed)
      · intro address member
        rcases mem_append.mp member with old | isNew
        · exact normal.lower address old
        · rw [mem_singleton.mp isNew]
          unfold requireEmail at accepted
          simp only [] at accepted
          split at accepted
          · cases accepted
          · cases accepted
            exact lowers _

variable {req : SyncEmailRoutingRequest}

theorem routingNormal_of_normalize (lowers : ∀ text, (toLowerCase text).toLower = toLowerCase text)
    {normalized : List RoutingAddress}
    (accepted : normalizeRoutingAddresses toLowerCase req = .ok normalized) :
    RoutingNormal normalized := by
  unfold normalizeRoutingAddresses at accepted
  split at accepted
  · cases accepted
  · rename_i addresses _
    suffices loop : ∀ (addresses : List EmailRoutingAddressInput)
        (out normalized : List RoutingAddress), RoutingNormal out →
        addresses.foldlM (addAddress toLowerCase) out = .ok normalized →
          RoutingNormal normalized from
      loop addresses [] normalized ⟨by simp, by simp⟩ accepted
    intro addresses
    induction addresses with
    | nil =>
      intro out normalized normal folded
      cases folded
      exact normal
    | cons a rest ih =>
      intro out normalized normal folded
      rw [foldlM_cons] at folded
      cases added : addAddress toLowerCase out a with
      | error thrown =>
        rw [added] at folded
        cases folded
      | ok next =>
        rw [added] at folded
        exact ih next normalized (routingNormal_addAddress lowers normal added) folded

theorem unmoved_of_isQuiet (call : Call) (quiet : call.IsQuiet)
    {answer : Except Thrown (Result call)} {after : Store × List StatusEvent}
    (answers : syncRecorder.Answers call world answer after) : after = world := by
  obtain ⟨answered, recordedEvents⟩ := recording_answers.mp answers
  have spares : ¬call.WritesUser := by
    intro writes
    cases call with
    | createUser row | updateUser userId patch updatedAt | activateIfInvited userId updatedAt =>
      exact quiet
    | _ => exact writes
  rw [syncEvents_of_spares spares] at recordedEvents
  exact Prod.ext (eq_of_isQuiet quiet answered) recordedEvents

/-- The condition on a sync, for the addresses that are still to come. -/
def SparesRetiredAt (orgId : String) (world : Store × List StatusEvent)
    (addresses : List RoutingAddress) : Prop :=
  ∀ address ∈ addresses, ∀ user, world.1.getUserByEmail orgId address.email = some user →
      reactivates address user = true → ¬Retired world.2 user.id

variable {before after : Store} {first second : String}

theorem getUserByEmail_eq_some {store : Store} {email : String} {user : UserRow}
    (found : store.getUserByEmail orgId email = some user) :
    user ∈ store.users ∧ user.email.toLower = email.toLower := by
  have holds := find?_some found
  simp only [decide_eq_true_eq] at holds
  exact ⟨mem_of_find?_eq_some found, holds.2⟩

theorem getUserByEmail_of_updateUser {existing : UserRow} {patch : UserPatch}
    {updatedAt : String} (apart : first.toLower ≠ second.toLower)
    (found : before.getUserByEmail orgId first = some existing)
    (answers : rosterMachine.Answers (.updateUser existing.id patch updatedAt) before
      (.ok ()) after) :
    after.getUserByEmail orgId second = before.getUserByEmail orgId second := by
  obtain ⟨existingMem, existingEmail⟩ := getUserByEmail_eq_some found
  rw [eq_of_updateUser answers]
  simp only [Store.getUserByEmail, KeyedTable.update, KeyedTable.map, find?_map]
  have sameKey : ((fun row : UserRow =>
      decide (row.orgId = orgId ∧ row.email.toLower = second.toLower)) ∘ fun row =>
        if decide (row.id = existing.id) = true then row.patched patch updatedAt else row) =
      fun row => decide (row.orgId = orgId ∧ row.email.toLower = second.toLower) := by
    funext row
    simp only [Function.comp_apply]
    split
    · rfl
    · rfl
  rw [sameKey]
  cases other : before.users.rows.find? fun row =>
      row.orgId = orgId ∧ row.email.toLower = second.toLower with
  | none => rfl
  | some user =>
    obtain ⟨userMem, userEmail⟩ := getUserByEmail_eq_some other
    have otherId : user.id ≠ existing.id := by
      intro sameId
      have same : user = existing := eq_of_key_eq userMem existingMem sameId
      rw [same, existingEmail] at userEmail
      exact apart userEmail
    simp [otherId]

theorem getUserByEmail_of_createUser {row : UserRow} (apart : row.email.toLower ≠ second.toLower)
    (answers : rosterMachine.Answers (.createUser row) before (.ok ()) after) :
    after.getUserByEmail orgId second = before.getUserByEmail orgId second := by
  have commits : before.commit (before.createUser row) = (.ok (), after) := answers
  unfold Store.createUser at commits
  split at commits
  · cases inserted : before.users.insert? row with
    | none =>
      rw [inserted] at commits
      cases congrArg Prod.fst commits
    | some users =>
      rw [inserted] at commits
      have moved := congrArg Prod.snd commits
      simp only [Option.map_some, Store.commit] at moved
      subst moved
      have rows := (insert?_eq_some inserted).1
      simp [Store.getUserByEmail, rows, find?_append, apart]
  · cases congrArg Prod.fst commits

variable {counts : Nat × Nat}

theorem safe_syncAddress {now : String} {address : RoutingAddress} {rest : List RoutingAddress}
    (apart : ∀ other ∈ rest, address.email.toLower ≠ other.email.toLower)
    (spares : SparesRetiredAt orgId world (address :: rest)) :
    Safe syncRecorder Call.ReactivatesOwn (syncAddress orgId now counts address)
      (fun _ after => SparesRetiredAt orgId after rest) world := by
  obtain ⟨store, history⟩ := world
  refine safe_read_bind rfl trivial ?_
  cases found : store.getUserByEmail orgId address.email with
  | none =>
    refine safe_port_bind trivial fun id issued issues => ?_
    have unmoved : issued = (store, history) := unmoved_of_isQuiet (.newId "user") trivial issues
    subst unmoved
    refine safe_port_bind trivial fun _ after answers => safe_pure ?_
    obtain ⟨answered, recordedEvents⟩ := recording_answers.mp answers
    intro other later user otherFound reenables
    rw [getUserByEmail_of_createUser (apart other later) answered] at otherFound
    rw [recordedEvents]
    exact spares other (mem_cons_of_mem address later) user otherFound reenables
  | some existing =>
    obtain ⟨existingMem, -⟩ := getUserByEmail_eq_some found
    refine safe_port_bind ?_ fun _ after answers => safe_pure ?_
    · intro isActive
      have reenables : reactivates address existing = true := by
        by_contra keeps
        simp [routedPatch, keeps] at isActive
      have isDisabled : existing.status = .disabled := by
        simp only [reactivates, decide_eq_true_eq] at reenables
        exact reenables.2.1
      exact ⟨spares address (.head _) existing found reenables,
        existing, existingMem, rfl, isDisabled⟩
    · obtain ⟨answered, recordedEvents⟩ := recording_answers.mp answers
      intro other later user otherFound reenables
      rw [getUserByEmail_of_updateUser (apart other later) found answered] at otherFound
      have notRetired :=
        spares other (mem_cons_of_mem address later) user otherFound reenables
      rw [recordedEvents]
      simp only [syncEvents, routedPatch]
      split
      · exact notRetired
      · exact notRetired

theorem safe_syncAddresses {now : String} {addresses : List RoutingAddress}
    (normal : RoutingNormal addresses)
    (spares : SparesRetiredAt orgId world addresses) :
    Safe syncRecorder Call.ReactivatesOwn
      (addresses.foldlM (syncAddress orgId now) counts) (fun _ _ => True) world := by
  induction addresses generalizing world counts with
  | nil => exact safe_pure trivial
  | cons address rest ih =>
    obtain ⟨fresh, distinct⟩ := nodup_cons.mp normal.distinct
    have normalRest : RoutingNormal rest :=
      ⟨distinct, fun other later =>
        normal.lower other (mem_cons_of_mem address later)⟩
    rw [foldlM_cons]
    apply safe_bind
    refine (safe_syncAddress ?_ spares).mono fun _ after sparesRest =>
      ih normalRest sparesRest
    intro other later same
    rw [normal.lower address mem_cons_self, normalRest.lower other later] at same
    exact fresh (List.mem_map.mpr ⟨other, later, same.symm⟩)

theorem safe_of_disabling {α : Type} {action : Roster α}
    (issues : Issues (fun call => ∀ world, call.ReactivatesOwn world) action) :
    Safe syncRecorder Call.ReactivatesOwn action (fun _ _ => True) world :=
  safe_of_keeps issues (fun _ before always _ => always before)
    (fun _ _ _ _ _ _ _ => trivial) trivial

theorem syncEmailRouting_reactivatesOwn
    (lowers : ∀ text, (toLowerCase text).toLower = toLowerCase text) {ctx : RequestCtx}
    (spares : (Op.syncEmailRouting orgId req ctx).SparesRetired toLowerCase world) :
    Safe syncRecorder Call.ReactivatesOwn (syncEmailRouting toLowerCase orgId req ctx)
      (fun _ _ => True) world := by
  obtain ⟨store, history⟩ := world
  refine safe_read_bind rfl trivial ?_
  apply safe_throwIf_bind
  intro known
  apply safe_checked_bind
  intro normalized accepted
  refine safe_port_bind trivial fun now issued issues => ?_
  have unmoved : issued = (store, history) := unmoved_of_isQuiet .now trivial issues
  subst unmoved
  have found : (store.orgs.find? orgId).isSome = true := Option.isSome_iff_ne_none.mpr known
  have sparesAll : SparesRetiredAt orgId (store, history) normalized :=
    spares found normalized accepted
  apply safe_bind
  apply (safe_syncAddresses (routingNormal_of_normalize lowers accepted) sparesAll).mono
  intro counts after _
  apply safe_of_disabling
  have quiet : AllowsQuiet fun call => ∀ world, call.ReactivatesOwn world := by
    refine ⟨fun call isQuiet world => ?_⟩
    cases call with
    | updateUser userId patch updatedAt => exact isQuiet.elim
    | _ => trivial
  refine issues_ask_bind trivial fun admins => ?_
  refine issues_ask_bind trivial fun owned => ?_
  apply Keeps.bind
  · apply Keeps.foldlM
    intro deactivated user _
    unfold deactivateRow
    split
    · exact Keeps.port_bind (fun _ => nofun) fun _ _ => Keeps.pure
    · exact Keeps.pure
  · intro deactivated
    exact Keeps.bind issues_publishSuccess fun _ => Keeps.pure

/-- A sync that spares retired accounts re-enables only what a sync disabled, in every
state of every session. -/
theorem neverReenablesRetired_of_sparesRetired {toLowerCase : String → String}
    (lowers : ∀ text, (toLowerCase text).toLower = toLowerCase text) :
    NeverReenablesRetired toLowerCase (Op.SparesRetired toLowerCase) := by
  intro start final history session
  have recorded : Recorded (final, history) := by
    apply session.keeps (recorded_priorHistory start)
    intro op before after outcome recorded spares reaches
    by_cases isSync : op.IsSync
    · cases op with
      | syncEmailRouting orgId req ctx =>
        have safe := syncEmailRouting_reactivatesOwn lowers spares
        have discarded : Safe syncRecorder Call.ReactivatesOwn
            (discard (syncEmailRouting toLowerCase orgId req ctx)) (fun _ _ => True)
            before :=
          safe_bind (safe.mono fun _ _ _ => safe_pure trivial)
        exact discarded.reaches sound_recorded recorded reaches
      | _ => exact isSync.elim
    · have kept : Safe (recording rosterMachine (statusEvents op))
          (fun call _ => op.MayIssue call) (op.program toLowerCase) (fun _ _ => True)
          before :=
        safe_of_keeps (op_footprint toLowerCase op) (fun _ _ issued _ => issued)
          (fun _ _ _ _ _ _ _ => trivial) trivial
      apply kept.reaches ?_ recorded reaches
      rintro call ⟨store, earlier⟩ answer ⟨moved, later⟩ holds issued answers
      obtain ⟨answered, rfl⟩ := recording_answers.mp answers
      exact recorded_of_mayIssue isSync issued answered holds
  exact recorded.own

theorem toLower_toLower (text : String) : text.toLower.toLower = text.toLower := by
  have lowersChar : Char.toLower ∘ Char.toLower = Char.toLower := by
    funext c
    simp only [Function.comp_apply]
    unfold Char.toLower
    split
    · rename_i upper
      rw [dif_neg]
      intro lower
      have atMost := upper.2
      have shiftedAtMost := lower.2
      have atLeast := upper.1
      simp only [ge_iff_le, UInt32.le_iff_toNat_le, UInt32.toNat_add] at *
      have first : ('A'.val).toNat = 65 := rfl
      have last : ('Z'.val).toNat = 90 := rfl
      have shift : ('a'.val - 'A'.val).toNat = 32 := rfl
      omega
    · rfl
  change (text.map Char.toLower).map Char.toLower = text.map Char.toLower
  rw [String.map_map, lowersChar]

theorem neverReenablesRetired_toLower :
    NeverReenablesRetired String.toLower (Op.SparesRetired String.toLower) :=
  neverReenablesRetired_of_sparesRetired toLower_toLower

/-- A user that a sync added. -/
def routedStore : Store where
  orgs := ⟨[{ id := "org", name := "org", createdAt := "t0" }], nodup_singleton _⟩
  users := ⟨[{
    id := "u1", orgId := "org", email := "back@example.com", displayName := "back"
    furigana := none, githubLogin := none, avatarUrl := none, status := .active
    source := .emailRouting, createdAt := "t0", updatedAt := "t0" }], nodup_singleton _⟩
  roles := .empty
  assignments := .empty
  mailVisibility := .empty

/-- `PATCH /users/u1` with the status `disabled`. -/
def retireUser : Op :=
  .updateUser "u1" "org"
    { displayName := none, furigana := none, githubLogin := none
      status := some .disabled }
    { requestId := "request", actorId := some "admin" }

def relistMailbox : Op :=
  .syncEmailRouting "org"
    { addresses := some [{ address := some "back@example.com", enabled := none }] }
    { requestId := "request", actorId := none }

def routedAfter (op : Op) (world : Store × List StatusEvent) : Store × List StatusEvent :=
  (identityService String.toLower).recordedAfter statusEvents quietOutside op world

theorem routedAfter_session (op : Op) (world : Store × List StatusEvent) :
    (identityService String.toLower).RecordedSession statusEvents anyOperation world
      (routedAfter op world) :=
  recordedSession_recordedAfter (identityService String.toLower) statusEvents quietOutside op world

def relisted : Store × List StatusEvent :=
  routedAfter relistMailbox (routedAfter retireUser (routedStore, routedStore.priorHistory))

/-- An account disabled by hand is back after the next sync. -/
theorem not_neverReenablesRetired : ¬NeverReenablesRetired String.toLower anyOperation := by
  intro never
  have history : relisted.2 = [.syncSet "u1" .active, .byHand "u1" .disabled] := by
    decide +kernel
  have own : OnlyOwnReactivations relisted.2 :=
    never routedStore relisted.1 relisted.2
      ((routedAfter_session retireUser _).trans (routedAfter_session relistMailbox _))
  rw [history] at own
  have notRetired := (own [] [.byHand "u1" .disabled] "u1" rfl).1
  exact notRetired (retired_cons_byHand nofun)

end DubEcosystem.IdentityRoster
