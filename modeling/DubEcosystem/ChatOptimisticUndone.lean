import DubEcosystem.ChatOptimistic
import Mathlib.Data.List.Find

/-!
# fe6-chat: a failed call that nothing disturbed undoes only itself

A view is compared with the one that the other changes make of the initial view.  While
calls are under way, the comparison is made for every choice of those that nothing has
disturbed: without them, the other changes lead to the snapshot of the first of them that
would restore one, or to the view itself.
-/

namespace DubEcosystem.ChatTimeline

open List Option

variable {Id : Type} {currentUserId : String}

section Views

variable (hidden : String → Bool)

variable (state : ChannelViewState Id)

@[simp]
theorem without_channelId : (without hidden state).channelId = state.channelId :=
  rfl

@[simp]
theorem without_messages : (without hidden state).messages = state.messages :=
  rfl

@[simp]
theorem without_pending :
    (without hidden state).pending = state.pending.filter fun p => !hidden p.clientTempId :=
  rfl

theorem echoed_some {pending : List (PendingMessage Id)} {event : MessageCreated Id}
    {echo : PendingMessage Id} (found : echoed pending event currentUserId = some echo) :
    echo ∈ pending ∧ echo.state ≠ .failed ∧ echo.request.body = event.body := by
  rw [echoed] at found
  split at found
  · have matched : echo.state ≠ .failed ∧ echo.request.body = event.body := by
      simpa using find?_some found
    exact ⟨mem_of_find?_eq_some found, matched⟩
  · cases found

theorem find?_filter_of_found {Entry : Type} {entries : List Entry} {sought kept : Entry → Bool}
    {entry : Entry} (found : entries.find? sought = some entry) (isKept : kept entry = true) :
    (entries.filter kept).find? sought = some entry := by
  induction entries with
  | nil => cases found
  | cons head tail ih =>
    by_cases isSought : sought head = true
    · rw [find?_cons_of_pos isSought] at found
      cases found
      rw [filter_cons_of_pos isKept, find?_cons_of_pos isSought]
    · rw [find?_cons_of_neg isSought] at found
      by_cases headKept : kept head = true
      · rw [filter_cons_of_pos headKept, find?_cons_of_neg isSought, ih found]
      · rw [filter_cons_of_neg headKept, ih found]

theorem withoutEchoed_filter (pending : List (PendingMessage Id)) (event : MessageCreated Id)
    (harmless : ∀ echo, echoed pending event currentUserId = some echo →
      hidden echo.clientTempId = true → ∀ other ∈ pending, hidden other.clientTempId = false →
        other.state ≠ .failed → other.request.body ≠ event.body) :
    withoutEchoed (pending.filter fun p => !hidden p.clientTempId) event currentUserId =
      (withoutEchoed pending event currentUserId).filter fun p => !hidden p.clientTempId := by
  have found_of : ∀ echo, echoed (pending.filter fun p => !hidden p.clientTempId) event
      currentUserId = some echo → echo ∈ pending ∧ hidden echo.clientTempId = false := by
    intro echo found
    simpa using (echoed_some found).1
  cases found : echoed pending event currentUserId with
  | none =>
    have notFound : echoed (pending.filter fun p => !hidden p.clientTempId) event
        currentUserId = none := by
      simp only [echoed] at found ⊢
      split at found
      · rename_i isOwn
        rw [if_pos isOwn]
        rw [List.find?_eq_none] at found ⊢
        exact fun p inFilter => found p (mem_filter.mp inFilter).1
      · rename_i notOwn
        rw [if_neg notOwn]
    simp only [withoutEchoed, found, notFound]
  | some echo =>
    by_cases isHidden : hidden echo.clientTempId = true
    · have notFound : echoed (pending.filter fun p => !hidden p.clientTempId) event
          currentUserId = none := by
        cases other : echoed (pending.filter fun p => !hidden p.clientTempId) event
            currentUserId with
        | none => rfl
        | some another =>
          obtain ⟨-, notFailed, sameBody⟩ := echoed_some other
          obtain ⟨anotherMem, notHidden⟩ := found_of another other
          exact absurd sameBody
            (harmless echo found isHidden another anotherMem notHidden notFailed)
      simp only [withoutEchoed, found, notFound, List.filter_filter]
      apply filter_congr
      intro p pMem
      by_cases same : p.clientTempId = echo.clientTempId
      · simp [same, isHidden]
      · simp [same]
    · have stillFound : echoed (pending.filter fun p => !hidden p.clientTempId) event
          currentUserId = some echo := by
        simp only [echoed] at found ⊢
        split at found
        · rename_i isOwn
          rw [if_pos isOwn]
          exact find?_filter_of_found found (by simpa using isHidden)
        · cases found
      simp only [withoutEchoed, found, stillFound]
      exact filter_comm _ _ _

end Views

section Updates

variable [LinearOrder Id]

/-- A change that does not depend on the hidden entries. -/
def Update.Harmless (currentUserId : String) (hidden : String → Bool)
    (state : ChannelViewState Id) : Update Id → Prop
  | .started call => ∀ tempId, call.clientTempId = some tempId → hidden tempId = false
  | .failed _ _ => False
  | .event (.messageCreated created) =>
    created.channelId = state.channelId → created.threadRootId = none →
      ∀ echo, echoed state.pending created currentUserId = some echo →
        hidden echo.clientTempId = true →
          ∀ other ∈ state.pending, hidden other.clientTempId = false → other.state ≠ .failed →
            other.request.body ≠ created.body
  | _ => True

variable {state : ChannelViewState Id}

variable {hidden : String → Bool} {update : Update Id}

theorem Update.run_without (harmless : update.Harmless currentUserId hidden state) :
    update.run currentUserId (without hidden state) =
      without hidden (update.run currentUserId state) := by
  cases update with
  | started call =>
    cases call with
    | sendPending pending =>
      have shown : hidden pending.clientTempId = false := harmless _ rfl
      simp [Update.run, Call.spec, sendSpec, addPending, without, shown]
    | editMessage | toggleReaction => rfl
    | deleteMessage id predicted =>
      simp only [Update.run, Call.spec, deleteSpec]
      split <;> rfl
  | answered call result =>
    cases call with
    | sendPending pending =>
      simp only [Update.run, Call.spec, sendSpec, ackPending, without]
      rw [filter_comm]
    | editMessage | toggleReaction => rfl
    | deleteMessage id predicted =>
      simp only [Update.run, Call.spec, deleteSpec]
      split <;> rfl
  | failed => exact harmless.elim
  | event frame =>
    by_cases here : frame.channelId = state.channelId
    swap
    · simp [Update.run, applyRealtimeEvent, here]
    cases frame with
    | messageCreated created =>
      simp only [ChatRealtimeEvent.channelId] at here
      cases isReply : created.threadRootId with
      | some threadRootId =>
        simp [Update.run, applyRealtimeEvent, ChatRealtimeEvent.channelId, here,
          applyMessageCreated, isReply, without]
      | none =>
        simp only [Update.run, applyRealtimeEvent, ChatRealtimeEvent.channelId, here,
          applyMessageCreated, isReply, without, ne_eq, not_true, if_false]
        rw [withoutEchoed_filter hidden state.pending created (harmless here isReply)]
    | messageDeleted channelId messageId deletedAt mode =>
      simp only [ChatRealtimeEvent.channelId] at here
      by_cases isHard : mode = some .hard <;>
        simp [Update.run, applyRealtimeEvent, ChatRealtimeEvent.channelId, here, isHard, without]
    | memberAdded | memberRemoved => simp [Update.run, applyRealtimeEvent, here]
    | reactionUpdated =>
      simp only [ChatRealtimeEvent.channelId] at here
      simp [Update.run, applyRealtimeEvent, ChatRealtimeEvent.channelId, here, without]
  | firstPage | olderPage | newerPage => rfl

/-- A change of a view that keeps it as it is takes no entry away and adds none. -/
theorem Update.harmless_of_fixed (fixed : update.run currentUserId state = state)
    (notFailed : ∀ call snapshot, update ≠ .failed call snapshot) :
    update.Harmless currentUserId hidden state := by
  cases update with
  | started call =>
    cases call with
    | sendPending pending =>
      have samePending := congrArg ChannelViewState.pending fixed
      simp [Update.run, Call.spec, sendSpec, addPending] at samePending
    | editMessage | deleteMessage | toggleReaction => exact nofun
  | failed call snapshot => exact (notFailed call snapshot rfl).elim
  | event frame =>
    cases frame with
    | messageCreated created =>
      intro here isPost echo found
      have samePending := congrArg ChannelViewState.pending fixed
      simp only [Update.run, applyRealtimeEvent, ChatRealtimeEvent.channelId, here,
        applyMessageCreated, isPost, ne_eq, not_true, if_false, withoutEchoed, found]
        at samePending
      have echoMem := (echoed_some found).1
      rw [← samePending] at echoMem
      simp at echoMem
    | messageDeleted | memberAdded | memberRemoved | reactionUpdated => trivial
  | answered | firstPage | olderPage | newerPage => trivial

/-- A change adds no entry but that of the post it starts. -/
theorem Update.mem_pending_run
    (notFailed : ∀ call snapshot, update ≠ .failed call snapshot) {p : PendingMessage Id}
    (pMem : p ∈ (update.run currentUserId state).pending) :
    p ∈ state.pending ∨ update = .started (.sendPending p) := by
  cases update with
  | started call =>
    cases call with
    | sendPending pending =>
      rcases mem_append.mp pMem with old | new
      · exact .inl old
      · rw [mem_singleton.mp new]
        exact .inr rfl
    | editMessage | toggleReaction => exact .inl pMem
    | deleteMessage id predicted =>
      simp only [Update.run, Call.spec, deleteSpec] at pMem
      split at pMem <;> exact .inl pMem
  | answered call result =>
    cases call with
    | sendPending pending => exact .inl (mem_filter.mp pMem).1
    | editMessage | toggleReaction => exact .inl pMem
    | deleteMessage id predicted =>
      simp only [Update.run, Call.spec, deleteSpec] at pMem
      split at pMem <;> exact .inl pMem
  | failed call snapshot => exact (notFailed call snapshot rfl).elim
  | event frame =>
    left
    simp only [Update.run, applyRealtimeEvent] at pMem
    split at pMem
    · exact pMem
    · cases frame with
      | messageCreated created =>
        simp only [applyMessageCreated] at pMem
        split at pMem
        · exact pMem
        · simp only [withoutEchoed] at pMem
          split at pMem
          · exact (mem_filter.mp pMem).1
          · exact pMem
      | messageDeleted =>
        simp only at pMem
        split at pMem <;> exact pMem
      | memberAdded | memberRemoved | reactionUpdated => exact pMem
  | firstPage | olderPage | newerPage => exact .inl pMem

end Updates

def Call.restores : Call Id → Bool
  | sendPending _ => false
  | _ => true

/-- Some calls that are under way and that nothing has disturbed. -/
def World.Chooses [LinearOrder Id] (currentUserId : String) (world : World Id)
    (chosen : Nat → Bool) : Prop :=
  ∀ id, chosen id = true → ∃ flight ∈ world.flights, flight.id = id ∧
    flight.Undisturbed currentUserId

def World.firstRestoring (world : World Id) (chosen : Nat → Bool) : Option (Flight Id) :=
  world.flights.find? fun flight => chosen flight.id && flight.call.restores

def World.base (world : World Id) (chosen : Nat → Bool) : ChannelViewState Id :=
  ((world.firstRestoring chosen).map Flight.snapshot).getD world.state

def World.omits (world : World Id) (chosen : Nat → Bool) (id : Nat) : Bool :=
  world.hasFailed id || chosen id

def World.hides (world : World Id) (chosen : Nat → Bool) (tempId : String) : Bool :=
  world.ofFailed tempId || world.flights.any fun flight =>
      chosen flight.id && decide (flight.call.clientTempId = some tempId)

/-- Without any choice of undisturbed calls, the other changes lead to the same view. -/
structure World.Replays [LinearOrder Id] (currentUserId : String) (world : World Id) : Prop where
  replays : ∀ chosen, world.Chooses currentUserId chosen →
    without (world.hides chosen) (world.base chosen) =
      replay currentUserId (world.omits chosen) world.log world.initial
  marked : ∀ chosen, world.Chooses currentUserId chosen →
    ∀ p ∈ (world.base chosen).pending, world.ofFailed p.clientTempId = true → p.state = .failed

abbrev World.ReplaysFor [LinearOrder Id] (currentUserId : String) (world : World Id)
    (chosen : Nat → Bool) : Prop :=
  without (world.hides chosen) (world.base chosen) =
      replay currentUserId (world.omits chosen) world.log world.initial ∧
    ∀ p ∈ (world.base chosen).pending, world.ofFailed p.clientTempId = true → p.state = .failed

variable {world : World Id}

theorem World.Replays.of_each [LinearOrder Id]
    (each : ∀ chosen, world.Chooses currentUserId chosen → world.ReplaysFor currentUserId chosen) :
    world.Replays currentUserId :=
  ⟨fun chosen chooses => (each chosen chooses).1, fun chosen chooses => (each chosen chooses).2⟩

structure World.Numbered (world : World Id) : Prop where
  distinct : (world.flights.map Flight.id).Nodup
  flightsLt : ∀ flight ∈ world.flights, flight.id < world.nextCall
  failedLt : ∀ failure ∈ world.failed, failure.1 < world.nextCall
  logLt : ∀ entry ∈ world.log, ∀ id, entry.1 = some id → id < world.nextCall
  stateUsed : ∀ p ∈ world.state.pending, p.clientTempId ∈ world.tempIds
  snapshotUsed : ∀ flight ∈ world.flights, ∀ p ∈ flight.snapshot.pending,
    p.clientTempId ∈ world.tempIds
  failedUsed : ∀ failure ∈ world.failed, ∀ tempId, failure.2.clientTempId = some tempId →
    tempId ∈ world.tempIds
  flightUsed : ∀ flight ∈ world.flights, ∀ tempId, flight.call.clientTempId = some tempId →
    tempId ∈ world.tempIds
  notFailed : ∀ flight ∈ world.flights, world.hasFailed flight.id = false

theorem World.mem_of_firstRestoring {chosen : Nat → Bool} {flight : Flight Id}
    (first : world.firstRestoring chosen = some flight) :
    flight ∈ world.flights ∧ chosen flight.id = true ∧ flight.call.restores = true := by
  have found := find?_some first
  exact ⟨mem_of_find?_eq_some first, by simpa using found⟩

theorem World.base_of_none {chosen : Nat → Bool} (none_ : world.firstRestoring chosen = none) :
    world.base chosen = world.state := by
  simp [World.base, none_]

theorem World.base_of_some {chosen : Nat → Bool} {flight : Flight Id}
    (first : world.firstRestoring chosen = some flight) : world.base chosen = flight.snapshot := by
  simp [World.base, first]

theorem World.firstRestoring_congr {chosen other : Nat → Bool}
    (same : ∀ flight ∈ world.flights, chosen flight.id = other flight.id) :
    world.firstRestoring chosen = world.firstRestoring other := by
  apply List.find?_congr
  intro flight flightMem
  rw [same flight flightMem]

theorem World.hides_congr {chosen other : Nat → Bool}
    (same : ∀ flight ∈ world.flights, chosen flight.id = other flight.id) :
    world.hides chosen = world.hides other := by
  funext tempId
  rw [Bool.eq_iff_iff]
  simp only [World.hides, Bool.or_eq_true, List.any_eq_true, Bool.and_eq_true]
  apply or_congr_right
  apply exists_congr
  intro flight
  apply and_congr_right
  intro flightMem
  rw [same flight flightMem]

section Noting

variable [LinearOrder Id]

theorem replay_append (omitted : Nat → Bool) (log : List (Option Nat × Update Id))
    (entry : Option Nat × Update Id) (state : ChannelViewState Id) :
    replay currentUserId omitted (log ++ [entry]) state =
      if entry.1.any omitted then replay currentUserId omitted log state
      else entry.2.run currentUserId (replay currentUserId omitted log state) := by
  by_cases isOmitted : entry.1.any omitted = true <;> simp [replay, filter_append, isOmitted]

variable {flight : Flight Id}

theorem Flight.undisturbed_iff_of_restores (restores : flight.call.restores = true) :
    flight.Undisturbed currentUserId ↔ ∀ state update, (state, update) ∈ flight.since →
      update.run currentUserId flight.snapshot = flight.snapshot := by
  obtain ⟨id, call, snapshot, since⟩ := flight
  cases call with
  | sendPending => cases restores
  | editMessage | deleteMessage | toggleReaction => rfl

section

variable {state : ChannelViewState Id} {update : Update Id}
  (undisturbed : (flight.note state update).Undisturbed currentUserId)
include undisturbed

theorem Flight.Undisturbed.of_note : flight.Undisturbed currentUserId := by
  obtain ⟨id, call, snapshot, since⟩ := flight
  cases call with
  | sendPending =>
    intro found change created echo inSince
    exact undisturbed found change created echo (mem_append_left _ inSince)
  | editMessage | deleteMessage | toggleReaction =>
    intro found change inSince
    exact undisturbed found change (mem_append_left _ inSince)

theorem Flight.Undisturbed.fixed (restores : flight.call.restores = true) :
    update.run currentUserId flight.snapshot = flight.snapshot := by
  have notedRestores : (flight.note state update).call.restores = true := restores
  exact (undisturbed_iff_of_restores notedRestores).mp undisturbed state update
    (mem_append_right _ (mem_singleton.mpr rfl))

end

variable {world : World Id} {owner : Option Nat} {change : Update Id} {chosen : Nat → Bool}

theorem World.Chooses.of_update
    (chooses : (world.update currentUserId owner change).Chooses currentUserId chosen) :
    world.Chooses currentUserId chosen := by
  intro id isChosen
  obtain ⟨noted, notedMem, sameId, undisturbed⟩ := chooses id isChosen
  obtain ⟨flight, flightMem, rfl⟩ := List.mem_map.mp notedMem
  exact ⟨flight, flightMem, sameId, undisturbed.of_note⟩

theorem World.firstRestoring_update :
    (world.update currentUserId owner change).firstRestoring chosen =
      (world.firstRestoring chosen).map (Flight.note world.state change) := by
  simp only [World.firstRestoring, World.update, find?_map]
  rfl

theorem World.hides_update :
    (world.update currentUserId owner change).hides chosen = world.hides chosen := by
  funext tempId
  simp only [World.hides, World.update, List.any_map]
  rfl

theorem World.Chooses.fixed
    (chooses : (world.update currentUserId owner change).Chooses currentUserId chosen)
    (numbered : world.Numbered) (first : world.firstRestoring chosen = some flight) :
    change.run currentUserId flight.snapshot = flight.snapshot := by
  obtain ⟨flightMem, isChosen, restores⟩ := World.mem_of_firstRestoring first
  obtain ⟨noted, notedMem, sameId, undisturbed⟩ := chooses flight.id isChosen
  obtain ⟨other, otherMem, rfl⟩ := List.mem_map.mp notedMem
  obtain rfl : other = flight :=
    inj_on_of_nodup_map numbered.distinct otherMem flightMem sameId
  exact undisturbed.fixed restores

theorem World.Replays.update (replays : world.Replays currentUserId) (numbered : world.Numbered)
    (notFailed : ∀ call snapshot, change ≠ .failed call snapshot)
    (kept : ∀ chosen, (world.update currentUserId owner change).Chooses currentUserId chosen →
      owner.any (world.omits chosen) = false)
    (harmless : ∀ chosen, (world.update currentUserId owner change).Chooses currentUserId chosen →
      world.firstRestoring chosen = none →
        change.Harmless currentUserId (world.hides chosen) world.state)
    (isNew : ∀ p, change = .started (.sendPending p) → world.ofFailed p.clientTempId = false) :
    (world.update currentUserId owner change).Replays currentUserId := by
  constructor
  · intro chosen chooses
    have before := replays.replays chosen chooses.of_update
    have log : replay currentUserId (world.omits chosen) (world.log ++ [(owner, change)])
        world.initial = change.run currentUserId (without (world.hides chosen)
          (world.base chosen)) := by
      rw [replay_append, kept chosen chooses, before]
      rfl
    change without ((world.update currentUserId owner change).hides chosen) _ =
      replay currentUserId (world.omits chosen) (world.log ++ [(owner, change)]) world.initial
    rw [log, World.hides_update, World.base, World.firstRestoring_update]
    cases first : world.firstRestoring chosen with
    | some flight =>
      have fixed := chooses.fixed numbered first
      rw [World.base_of_some first, Update.run_without (Update.harmless_of_fixed fixed notFailed), fixed]
      rfl
    | none =>
      rw [World.base_of_none first, Update.run_without (harmless chosen chooses first)]
      rfl
  · intro chosen chooses p pMem ofFailed
    have before := replays.marked chosen chooses.of_update p
    rw [World.base, World.firstRestoring_update] at pMem
    cases first : world.firstRestoring chosen with
    | some flight =>
      rw [first] at pMem
      exact before (by rw [World.base, first]; exact pMem) ofFailed
    | none =>
      rw [first] at pMem
      rcases Update.mem_pending_run notFailed pMem with old | isStart
      · exact before (by rw [World.base, first]; exact old) ofFailed
      · exact absurd ofFailed (Bool.eq_false_iff.mp (isNew p isStart))

theorem World.Chooses.of_land (chooses : (world.land flight).Chooses currentUserId chosen) :
    world.Chooses currentUserId chosen ∧ chosen flight.id = false := by
  constructor
  · intro id isChosen
    obtain ⟨other, otherMem, rest⟩ := chooses id isChosen
    exact ⟨other, (mem_filter.mp otherMem).1, rest⟩
  · by_contra isChosen
    obtain ⟨other, otherMem, sameId, -⟩ := chooses flight.id (by simpa using isChosen)
    simpa [sameId] using (mem_filter.mp otherMem).2

omit [LinearOrder Id] in
theorem World.firstRestoring_land (notChosen : chosen flight.id = false) :
    (world.land flight).firstRestoring chosen = world.firstRestoring chosen := by
  simp only [World.firstRestoring, World.land, find?_filter]
  congr 1
  funext other
  by_cases same : other.id = flight.id <;> simp [same, notChosen]

omit [LinearOrder Id] in
theorem World.hides_land (notChosen : chosen flight.id = false) :
    (world.land flight).hides chosen = world.hides chosen := by
  funext tempId
  apply congrArg (world.ofFailed tempId || ·)
  rw [World.land, List.any_filter]
  congr 1
  funext other
  by_cases same : other.id = flight.id <;> simp [same, notChosen]

theorem World.Replays.land (replays : world.Replays currentUserId) (flight : Flight Id) :
    (world.land flight).Replays currentUserId := by
  apply World.Replays.of_each
  intro chosen chooses
  obtain ⟨before, notChosen⟩ := chooses.of_land
  rw [World.ReplaysFor, World.base, World.firstRestoring_land notChosen, World.hides_land notChosen]
  exact ⟨replays.replays chosen before, replays.marked chosen before⟩

end Noting

section Beginning

variable {world : World Id} {chosen : Nat → Bool} {call : Call Id}

theorem World.Numbered.hasFailed (numbered : world.Numbered) {id : Nat}
    (isNew : world.nextCall ≤ id) : world.hasFailed id = false := by
  rw [World.hasFailed, List.any_eq_false]
  intro failure failureMem
  have lt := numbered.failedLt failure failureMem
  simp only [decide_eq_true_eq]
  omega

theorem World.Numbered.ofFailed (numbered : world.Numbered) {tempId : String}
    (isNew : tempId ∉ world.tempIds) : world.ofFailed tempId = false := by
  rw [World.ofFailed, List.any_eq_false]
  intro failure failureMem
  simpa using fun isTempId => isNew (numbered.failedUsed failure failureMem tempId isTempId)

theorem World.Numbered.hides (numbered : world.Numbered) {tempId : String}
    (isNew : tempId ∉ world.tempIds) : world.hides chosen tempId = false := by
  rw [World.hides, numbered.ofFailed isNew, Bool.false_or, List.any_eq_false]
  intro flight flightMem
  simpa using fun _ isTempId => isNew (numbered.flightUsed flight flightMem tempId isTempId)

variable {state : ChannelViewState Id}

theorem without_or (hidden : String → Bool)
    (isNew : ∀ p ∈ state.pending, call.clientTempId ≠ some p.clientTempId) :
    without (fun tempId => hidden tempId || decide (call.clientTempId = some tempId)) state =
      without hidden state := by
  simp only [without]
  congr 1
  apply filter_congr
  intro p pMem
  simp [isNew p pMem]

variable [LinearOrder Id]

/-- The start of a call is a change like any other for the calls that are under way. -/
theorem World.Replays.started (replays : world.Replays currentUserId)
    (numbered : world.Numbered) (isNew : world.isNew call) :
    (world.update currentUserId (some world.nextCall) (.started call)).Replays currentUserId := by
  apply replays.update numbered (fun _ _ isFailure => by cases isFailure)
  · intro chosen chooses
    have notChosen : chosen world.nextCall = false := by
      by_contra isChosen
      obtain ⟨flight, flightMem, sameId, -⟩ :=
        chooses.of_update world.nextCall (by simpa using isChosen)
      exact absurd (numbered.flightsLt flight flightMem) (by omega)
    simp [World.omits, numbered.hasFailed le_rfl, notChosen]
  · intro chosen _ _ tempId isTempId
    exact numbered.hides (isNew tempId isTempId)
  · rintro p isStart
    cases isStart
    exact numbered.ofFailed (isNew p.clientTempId rfl)

theorem World.firstRestoring_begin : (world.begin currentUserId call).firstRestoring chosen =
      ((world.firstRestoring chosen).map (Flight.note world.state (.started call))).or
        (if chosen world.nextCall && call.restores then
          some ⟨world.nextCall, call, world.state, []⟩ else none) := by
  have noted := @World.firstRestoring_update Id currentUserId _ world (some world.nextCall)
    (.started call) chosen
  rw [← noted]
  simp only [World.firstRestoring, World.begin, find?_append, find?_singleton]

theorem World.hides_begin (tempId : String) : (world.begin currentUserId call).hides chosen tempId =
      (world.hides chosen tempId ||
        (chosen world.nextCall && decide (call.clientTempId = some tempId))) := by
  simp only [World.hides, World.begin, World.update, any_append, List.any_map,
    any_cons, any_nil, Bool.or_false, Bool.or_assoc]
  rfl

theorem replay_congr {first second : Nat → Bool} {log : List (Option Nat × Update Id)}
    (same : ∀ entry ∈ log, entry.1.any first = entry.1.any second)
    (state : ChannelViewState Id) :
    replay currentUserId first log state = replay currentUserId second log state := by
  rw [replay, replay]
  congr 1
  apply filter_congr
  intro entry entryMem
  rw [same entry entryMem]

omit [LinearOrder Id] in
theorem without_addPending {hidden : String → Bool}
    {pending : PendingMessage Id} (isHidden : hidden pending.clientTempId = true) :
    without hidden (addPending state pending) = without hidden state := by
  simp [without, addPending, isHidden]

theorem World.Chooses.of_begin
    (chooses : (world.begin currentUserId call).Chooses currentUserId chosen) :
    (world.update currentUserId (some world.nextCall) (.started call)).Chooses currentUserId
      fun id => chosen id && decide (id ≠ world.nextCall) := by
  intro id isChosen
  simp only [Bool.and_eq_true, decide_eq_true_eq] at isChosen
  obtain ⟨flight, flightMem, sameId, undisturbed⟩ := chooses id isChosen.1
  rcases mem_append.mp flightMem with old | new
  · exact ⟨flight, old, sameId, undisturbed⟩
  · rw [mem_singleton.mp new] at sameId
    exact absurd sameId.symm isChosen.2

section

variable (replays : world.Replays currentUserId) (numbered : world.Numbered)
  (isNew : world.isNew call)
include replays numbered isNew

/-- A choice without the new call is one of those that were under way. -/
theorem World.Replays.begin_of_not_chosen (notChosen : chosen world.nextCall = false)
    (chooses : (world.begin currentUserId call).Chooses currentUserId chosen) :
    (world.begin currentUserId call).ReplaysFor currentUserId chosen := by
  have started := replays.started numbered isNew
  have sameChoice : (fun id => chosen id && decide (id ≠ world.nextCall)) = chosen := by
    funext id
    by_cases isNext : id = world.nextCall <;> simp [isNext, notChosen]
  have before := chooses.of_begin
  rw [sameChoice] at before
  have sameBase : (world.begin currentUserId call).base chosen =
      (world.update currentUserId (some world.nextCall) (.started call)).base chosen := by
    rw [World.base, World.firstRestoring_begin, World.base, World.firstRestoring_update]
    simp only [notChosen, Bool.false_and, Bool.false_eq_true, if_false, Option.or_none]
    rfl
  have sameHides : (world.begin currentUserId call).hides chosen = world.hides chosen := by
    funext tempId
    simp [World.hides_begin, notChosen]
  rw [World.ReplaysFor, sameBase, sameHides, ← @World.hides_update Id currentUserId _ world
    (some world.nextCall) (.started call)]
  exact ⟨started.replays chosen before, started.marked chosen before⟩

/-- A choice with the new call, which has changed nothing without it. -/
theorem World.Replays.begin_of_chosen (isChosen : chosen world.nextCall = true)
    (chooses : (world.begin currentUserId call).Chooses currentUserId chosen) :
    (world.begin currentUserId call).ReplaysFor currentUserId chosen := by
  set earlier : Nat → Bool := fun id => chosen id && decide (id ≠ world.nextCall) with isEarlier
  have before := chooses.of_begin.of_update
  have log : replay currentUserId ((world.begin currentUserId call).omits chosen)
      (world.begin currentUserId call).log (world.begin currentUserId call).initial =
        replay currentUserId (world.omits earlier) world.log world.initial := by
    change replay currentUserId (world.omits chosen)
      (world.log ++ [(some world.nextCall, .started call)]) world.initial = _
    rw [replay_append]
    simp only [any_some, World.omits, isChosen, Bool.or_true, if_true]
    apply replay_congr
    rintro ⟨owner, change⟩ entryMem
    cases owner with
    | none => rfl
    | some id =>
      have idLt := numbered.logLt _ entryMem id rfl
      have idNe : id ≠ world.nextCall := by omega
      simp [isEarlier, idNe, World.omits]
  have sameChoice : ∀ flight ∈ world.flights, chosen flight.id = earlier flight.id := by
    intro flight flightMem
    have idNe := (numbered.flightsLt flight flightMem).ne
    simp [isEarlier, idNe]
  have hides : (world.begin currentUserId call).hides chosen = fun tempId =>
      world.hides earlier tempId || decide (call.clientTempId = some tempId) := by
    funext tempId
    rw [World.hides_begin, isChosen, Bool.true_and, World.hides_congr sameChoice]
  have fresh : ∀ state : ChannelViewState Id,
      (∀ p ∈ state.pending, p.clientTempId ∈ world.tempIds) →
        ∀ p ∈ state.pending, call.clientTempId ≠ some p.clientTempId :=
    fun state used p pMem isTempId => isNew p.clientTempId isTempId (used p pMem)
  have replayed := replays.replays earlier before
  have marked := replays.marked earlier before
  rw [World.ReplaysFor, log, hides, ← replayed, World.base, World.firstRestoring_begin,
    World.firstRestoring_congr sameChoice]
  cases first : world.firstRestoring earlier with
  | some flight =>
    rw [World.base_of_some first] at marked ⊢
    have flightMem := (World.mem_of_firstRestoring first).1
    exact ⟨without_or _ (fresh _ (numbered.snapshotUsed flight flightMem)), marked⟩
  | none =>
    rw [World.base_of_none first] at marked ⊢
    cases call with
    | sendPending pending =>
      simp only [Call.restores, Bool.and_false, Bool.false_eq_true, if_false]
      constructor
      · change without _ (addPending world.state pending) = _
        rw [without_addPending (by simp [Call.clientTempId]),
          without_or _ (fresh _ numbered.stateUsed)]
      · intro p pMem ofFailed
        rcases mem_append.mp pMem with old | new
        · exact marked p old ofFailed
        · rw [mem_singleton.mp new] at ofFailed
          have notFailed := numbered.ofFailed (isNew pending.clientTempId rfl)
          exact absurd ofFailed (Bool.eq_false_iff.mp notFailed)
    | editMessage | deleteMessage | toggleReaction =>
      simp only [Call.restores, isChosen, Bool.and_self, if_true]
      exact ⟨without_or _ (fresh _ numbered.stateUsed), marked⟩

theorem World.Replays.begin : (world.begin currentUserId call).Replays currentUserId := by
  apply World.Replays.of_each
  intro chosen chooses
  by_cases isChosen : chosen world.nextCall = true
  · exact replays.begin_of_chosen numbered isNew isChosen chooses
  · exact replays.begin_of_not_chosen numbered isNew (by simpa using isChosen) chooses

end

end Beginning

section Failing

variable [LinearOrder Id] {world : World Id} {chosen : Nat → Bool} {flight : Flight Id}

def withFailing (chosen : Nat → Bool) (flight : Flight Id) (id : Nat) : Bool :=
  chosen id || decide (id = flight.id)

theorem World.firstRestoring_rollback (notChosen : chosen flight.id = false) :
    (world.rollback currentUserId flight).firstRestoring chosen = (world.firstRestoring chosen).map
        (Flight.note world.state (.failed flight.call flight.snapshot)) := by
  have noted : (world.rollback currentUserId flight).flights = (world.land flight).flights.map
      (Flight.note world.state (.failed flight.call flight.snapshot)) := rfl
  rw [World.firstRestoring, noted, find?_map]
  exact congrArg (Option.map _) (World.firstRestoring_land notChosen)

theorem World.hides_rollback (numbered : world.Numbered) (isFlying : flight ∈ world.flights)
    (notChosen : chosen flight.id = false) :
    (world.rollback currentUserId flight).hides chosen =
      world.hides (withFailing chosen flight) := by
  funext tempId
  rw [Bool.eq_iff_iff]
  simp only [World.hides, World.rollback, World.ofFailed, World.land, any_cons,
    List.any_map, Bool.or_eq_true, List.any_eq_true, decide_eq_true_eq]
  constructor
  · rintro ((isFlights | ofFailed) | ⟨other, otherMem, isOthers⟩)
    · right
      exact ⟨flight, isFlying, by simp [withFailing, isFlights]⟩
    · exact .inl ofFailed
    · right
      refine ⟨other, (mem_filter.mp otherMem).1, ?_⟩
      simp only [Function.comp, Flight.note, Bool.and_eq_true] at isOthers
      simpa [withFailing, isOthers.1] using of_decide_eq_true isOthers.2
  · rintro (ofFailed | ⟨other, otherMem, isOthers⟩)
    · exact .inl (.inr ofFailed)
    · simp only [withFailing, Bool.and_eq_true, Bool.or_eq_true, decide_eq_true_eq] at isOthers
      by_cases same : other.id = flight.id
      · obtain rfl := inj_on_of_nodup_map numbered.distinct otherMem isFlying same
        exact .inl (.inl isOthers.2)
      · right
        refine ⟨other, mem_filter.mpr ⟨otherMem, by simpa using same⟩, ?_⟩
        simp [Flight.note, isOthers.1.resolve_right same, isOthers.2]

theorem World.omits_rollback : (world.rollback currentUserId flight).omits chosen =
      world.omits (withFailing chosen flight) := by
  funext id
  rw [Bool.eq_iff_iff]
  simp only [World.omits, World.rollback, World.hasFailed, withFailing, any_cons,
    Bool.or_eq_true, decide_eq_true_eq]
  rw [@eq_comm _ id flight.id]
  tauto

section

variable (chooses : (world.rollback currentUserId flight).Chooses currentUserId chosen)
include chooses

theorem World.Chooses.of_rollback (isFlying : flight ∈ world.flights)
    (undisturbed : flight.Undisturbed currentUserId) :
    world.Chooses currentUserId (withFailing chosen flight) ∧ chosen flight.id = false := by
  have others : ∀ id, chosen id = true → ∃ other ∈ world.flights, other.id = id ∧
      other.id ≠ flight.id ∧ other.Undisturbed currentUserId := by
    intro id isChosen
    obtain ⟨noted, notedMem, sameId, notedUndisturbed⟩ := chooses id isChosen
    obtain ⟨other, otherMem, rfl⟩ := List.mem_map.mp notedMem
    obtain ⟨inFlight, idNe⟩ := mem_filter.mp otherMem
    exact ⟨other, inFlight, sameId, by simpa using idNe, notedUndisturbed.of_note⟩
  constructor
  · intro id isChosen
    rcases Bool.or_eq_true_iff.mp isChosen with old | isFlights
    · obtain ⟨other, otherMem, sameId, -, otherUndisturbed⟩ := others id old
      exact ⟨other, otherMem, sameId, otherUndisturbed⟩
    · exact ⟨flight, isFlying, (of_decide_eq_true isFlights).symm, undisturbed⟩
  · by_contra isChosen
    obtain ⟨other, -, sameId, idNe, -⟩ := others flight.id (by simpa using isChosen)
    exact idNe sameId

theorem World.Chooses.fixed_rollback (numbered : world.Numbered) {other : Flight Id}
    (first : world.firstRestoring chosen = some other) :
    Update.run currentUserId other.snapshot (.failed flight.call flight.snapshot) =
      other.snapshot := by
  obtain ⟨otherMem, isChosen, restores⟩ := World.mem_of_firstRestoring first
  obtain ⟨noted, notedMem, sameId, undisturbed⟩ := chooses other.id isChosen
  obtain ⟨another, anotherMem, rfl⟩ := List.mem_map.mp notedMem
  obtain rfl : another = other :=
    inj_on_of_nodup_map numbered.distinct (mem_filter.mp anotherMem).1 otherMem sameId
  exact undisturbed.fixed restores

omit chooses in
theorem Update.run_failed_of_restores {state snapshot : ChannelViewState Id} {call : Call Id}
    (restores : call.restores = true) :
    Update.run currentUserId state (.failed call snapshot) = snapshot := by
  cases call with
  | sendPending => cases restores
  | editMessage | deleteMessage | toggleReaction => rfl

omit [LinearOrder Id] chooses in
theorem without_failPending {hidden : String → Bool} {state : ChannelViewState Id}
    {tempId : String} (isHidden : hidden tempId = true) :
    without hidden (failPending state tempId) = without hidden state := by
  have sameTempId : ∀ p : PendingMessage Id,
      (if p.clientTempId = tempId then { p with state := .failed } else p).clientTempId =
        p.clientTempId := by
    intro p
    split <;> rfl
  have unchanged : ∀ p ∈ state.pending.filter fun p => !hidden p.clientTempId,
      (if p.clientTempId = tempId then { p with state := .failed } else p) = p := by
    intro p pMem
    apply if_neg
    rintro rfl
    simpa [isHidden] using (mem_filter.mp pMem).2
  simp only [without, failPending, List.filter_map, Function.comp_def, sameTempId,
    AscendingTables.map_eq_self unchanged]

theorem World.base_rollback_of_restores (numbered : world.Numbered)
    (isFlying : flight ∈ world.flights) (restores : flight.call.restores = true)
    (notChosen : chosen flight.id = false) :
    (world.rollback currentUserId flight).base chosen = world.base (withFailing chosen flight) := by
  have restored : (world.rollback currentUserId flight).state = flight.snapshot :=
    Update.run_failed_of_restores restores
  rw [World.base, World.firstRestoring_rollback notChosen, restored]
  cases first : world.firstRestoring (withFailing chosen flight) with
  | none =>
    have noneIs := List.find?_eq_none.mp first flight isFlying
    simp [withFailing, restores] at noneIs
  | some other =>
    obtain ⟨otherMem, isChosen, otherRestores⟩ := World.mem_of_firstRestoring first
    rw [World.base_of_some first]
    by_cases same : other.id = flight.id
    · obtain rfl := inj_on_of_nodup_map numbered.distinct otherMem isFlying same
      cases earlier : world.firstRestoring chosen with
      | none => rfl
      | some another =>
        have fixed := chooses.fixed_rollback numbered earlier
        rw [Update.run_failed_of_restores restores] at fixed
        exact fixed.symm
    · have stillFirst : world.firstRestoring chosen = some other := by
        have inChosen : chosen other.id = true := by
          simpa [withFailing, same] using isChosen
        have found := @find?_filter_of_found _ _ _ (fun f => chosen f.id) _ first inChosen
        rw [find?_filter] at found
        rw [← found, World.firstRestoring]
        congr 1
        funext f
        by_cases isChosen : chosen f.id = true <;> simp [withFailing, isChosen]
      rw [stillFirst]
      rfl

end

omit [LinearOrder Id] in
theorem World.firstRestoring_withFailing (numbered : world.Numbered)
    (isFlying : flight ∈ world.flights) (stays : flight.call.restores = false) :
    world.firstRestoring (withFailing chosen flight) = world.firstRestoring chosen := by
  apply List.find?_congr
  intro other otherMem
  by_cases same : other.id = flight.id
  · obtain rfl := inj_on_of_nodup_map numbered.distinct otherMem isFlying same
    simp [stays]
  · simp [withFailing, same]

section

variable (replays : world.Replays currentUserId) (numbered : world.Numbered)
  (isFlying : flight ∈ world.flights) (undisturbed : flight.Undisturbed currentUserId)
include replays numbered isFlying undisturbed

theorem World.Replays.rollback_restoring (restores : flight.call.restores = true) :
    (world.rollback currentUserId flight).Replays currentUserId := by
  have sameFailed : (world.rollback currentUserId flight).ofFailed = world.ofFailed := by
    funext tempId
    have noTempId : flight.call.clientTempId = none := by
      cases isCall : flight.call with
      | sendPending => simp [isCall, Call.restores] at restores
      | editMessage | deleteMessage | toggleReaction => rfl
    simp [World.ofFailed, World.rollback, noTempId]
  apply World.Replays.of_each
  intro chosen chooses
  obtain ⟨before, notChosen⟩ := chooses.of_rollback isFlying undisturbed
  rw [World.ReplaysFor, World.hides_rollback numbered isFlying notChosen, World.omits_rollback,
    World.base_rollback_of_restores chooses numbered isFlying restores notChosen, sameFailed]
  exact ⟨replays.replays _ before, replays.marked _ before⟩

theorem World.Replays.rollback_sending {pending : PendingMessage Id}
    (isCall : flight.call = .sendPending pending) :
    (world.rollback currentUserId flight).Replays currentUserId := by
  have stays : flight.call.restores = false := by simp [isCall, Call.restores]
  have failedRun : ∀ state snapshot, Update.run currentUserId state (.failed flight.call snapshot) =
      failPending state pending.clientTempId := by
    intro state snapshot
    rw [isCall]
    rfl
  have ofFailed : ∀ tempId, (world.rollback currentUserId flight).ofFailed tempId = true ↔
      pending.clientTempId = tempId ∨ world.ofFailed tempId = true := by
    intro tempId
    simp [World.ofFailed, World.rollback, isCall, Call.clientTempId]
  have marks : ∀ state : ChannelViewState Id,
      (∀ p ∈ state.pending, world.ofFailed p.clientTempId = true → p.state = .failed) →
        ∀ p ∈ (failPending state pending.clientTempId).pending,
          (world.rollback currentUserId flight).ofFailed p.clientTempId = true →
            p.state = .failed := by
    intro state marked p pMem isFailed
    obtain ⟨old, oldMem, rfl⟩ := List.mem_map.mp pMem
    by_cases isOwn : old.clientTempId = pending.clientTempId
    · rw [if_pos isOwn]
    · rw [if_neg isOwn] at isFailed ⊢
      exact marked old oldMem (((ofFailed _).mp isFailed).resolve_left (Ne.symm isOwn))
  constructor
  · intro chosen chooses
    obtain ⟨before, notChosen⟩ := chooses.of_rollback isFlying undisturbed
    have replayed := replays.replays _ before
    rw [World.hides_rollback numbered isFlying notChosen, World.omits_rollback]
    change _ = replay currentUserId _ world.log world.initial
    rw [← replayed, World.base, World.base, World.firstRestoring_rollback notChosen,
      World.firstRestoring_withFailing numbered isFlying stays]
    cases first : world.firstRestoring chosen with
    | some other => rfl
    | none =>
      have isHidden : world.hides (withFailing chosen flight) pending.clientTempId = true := by
        simp only [World.hides, Bool.or_eq_true, List.any_eq_true]
        exact .inr ⟨flight, isFlying, by simp [withFailing, isCall, Call.clientTempId]⟩
      have marksOwn : (world.rollback currentUserId flight).state =
          failPending world.state pending.clientTempId := failedRun _ _
      simp only [map_none, getD_none, marksOwn, without_failPending isHidden]
  · intro chosen chooses
    obtain ⟨before, notChosen⟩ := chooses.of_rollback isFlying undisturbed
    have marked := replays.marked _ before
    rw [World.base, World.firstRestoring_withFailing numbered isFlying stays] at marked
    rw [World.base, World.firstRestoring_rollback notChosen]
    cases first : world.firstRestoring chosen with
    | some other =>
      have fixed := chooses.fixed_rollback numbered first
      rw [failedRun] at fixed
      rw [first] at marked
      have marksSnapshot := marks other.snapshot marked
      rw [fixed] at marksSnapshot
      exact marksSnapshot
    | none =>
      rw [first] at marked
      have marksState := marks world.state marked
      rw [← failedRun world.state flight.snapshot] at marksState
      exact marksState

theorem World.Replays.rollback : (world.rollback currentUserId flight).Replays currentUserId := by
  cases isCall : flight.call with
  | sendPending =>
    exact replays.rollback_sending numbered isFlying undisturbed isCall
  | editMessage | deleteMessage | toggleReaction =>
    exact replays.rollback_restoring numbered isFlying undisturbed (by rw [isCall]; rfl)

end

end Failing

section Runs

variable [LinearOrder Id] {world after : World Id}

variable {change : Update Id}

theorem World.Numbered.update (numbered : world.Numbered) {owner : Option Nat}
    (notFailed : ∀ call snapshot, change ≠ .failed call snapshot)
    (ownerLt : ∀ id, owner = some id → id < world.nextCall)
    (notStarted : ∀ p, change ≠ .started (.sendPending p)) :
    (world.update currentUserId owner change).Numbered := by
  constructor
  · simpa [World.update, Function.comp_def, Flight.note] using numbered.distinct
  · exact forall_mem_map.mpr numbered.flightsLt
  · exact numbered.failedLt
  · intro entry entryMem id isId
    rcases mem_append.mp entryMem with old | new
    · exact numbered.logLt entry old id isId
    · rw [mem_singleton.mp new] at isId
      exact ownerLt id isId
  · intro p pMem
    rcases Update.mem_pending_run notFailed pMem with old | isStart
    · exact numbered.stateUsed p old
    · exact absurd isStart (notStarted p)
  · exact forall_mem_map.mpr numbered.snapshotUsed
  · exact numbered.failedUsed
  · exact forall_mem_map.mpr numbered.flightUsed
  · exact forall_mem_map.mpr numbered.notFailed

omit [LinearOrder Id] in
theorem World.Numbered.land (numbered : world.Numbered) (flight : Flight Id) :
    (world.land flight).Numbered where
  distinct := numbered.distinct.sublist (filter_sublist.map _)
  flightsLt := fun other otherMem => numbered.flightsLt other (mem_filter.mp otherMem).1
  failedLt := numbered.failedLt
  logLt := numbered.logLt
  stateUsed := numbered.stateUsed
  snapshotUsed := fun other otherMem =>
    numbered.snapshotUsed other (mem_filter.mp otherMem).1
  failedUsed := numbered.failedUsed
  flightUsed := fun other otherMem => numbered.flightUsed other (mem_filter.mp otherMem).1
  notFailed := fun other otherMem => numbered.notFailed other (mem_filter.mp otherMem).1

theorem World.Numbered.begin (numbered : world.Numbered) (call : Call Id) :
    (world.begin currentUserId call).Numbered := by
  have oldOrNew : ∀ flight ∈ (world.begin currentUserId call).flights,
      (∃ old ∈ world.flights, flight = old.note world.state (.started call)) ∨
        flight = ⟨world.nextCall, call, world.state, []⟩ := by
    intro flight flightMem
    rcases mem_append.mp flightMem with inNoted | new
    · obtain ⟨old, oldMem, rfl⟩ := List.mem_map.mp inNoted
      exact .inl ⟨old, oldMem, rfl⟩
    · exact .inr (mem_singleton.mp new)
  constructor
  · have ids : (world.begin currentUserId call).flights.map Flight.id =
        world.flights.map Flight.id ++ [world.nextCall] := by
      simp [World.begin, World.update, Function.comp_def, Flight.note]
    rw [ids, nodup_append]
    refine ⟨numbered.distinct, nodup_singleton _, ?_⟩
    intro id idMem next nextMem
    obtain ⟨flight, flightMem, rfl⟩ := List.mem_map.mp idMem
    rw [mem_singleton.mp nextMem]
    exact (numbered.flightsLt flight flightMem).ne
  · intro flight flightMem
    rcases oldOrNew flight flightMem with ⟨old, oldMem, rfl⟩ | rfl
    · exact (numbered.flightsLt old oldMem).trans (Nat.lt_succ_self _)
    · exact Nat.lt_succ_self _
  · intro failure failureMem
    exact (numbered.failedLt failure failureMem).trans (Nat.lt_succ_self _)
  · intro entry entryMem id isId
    rcases mem_append.mp entryMem with old | new
    · exact (numbered.logLt entry old id isId).trans (Nat.lt_succ_self _)
    · rw [mem_singleton.mp new] at isId
      cases isId
      exact Nat.lt_succ_self _
  · intro p pMem
    have notFailed : ∀ other snapshot, Update.started call ≠ .failed other snapshot := by
      intro other snapshot isFailure
      cases isFailure
    rcases Update.mem_pending_run notFailed pMem with old | isStart
    · exact mem_append_left _ (numbered.stateUsed p old)
    · cases isStart
      exact mem_append_right _ (by simp [Call.clientTempId])
  · intro flight flightMem p pMem
    rcases oldOrNew flight flightMem with ⟨old, oldMem, rfl⟩ | rfl
    · exact mem_append_left _ (numbered.snapshotUsed old oldMem p pMem)
    · exact mem_append_left _ (numbered.stateUsed p pMem)
  · intro failure failureMem tempId isTempId
    exact mem_append_left _ (numbered.failedUsed failure failureMem tempId isTempId)
  · intro flight flightMem tempId isTempId
    rcases oldOrNew flight flightMem with ⟨old, oldMem, rfl⟩ | rfl
    · exact mem_append_left _ (numbered.flightUsed old oldMem tempId isTempId)
    · exact mem_append_right _ (by simpa using isTempId)
  · intro flight flightMem
    rcases oldOrNew flight flightMem with ⟨old, oldMem, rfl⟩ | rfl
    · exact numbered.notFailed old oldMem
    · exact numbered.hasFailed le_rfl

variable {flight : Flight Id}

theorem World.Numbered.rollback (numbered : world.Numbered) (isFlying : flight ∈ world.flights) :
    (world.rollback currentUserId flight).Numbered := by
  have landed := numbered.land flight
  constructor
  · have ids : (world.rollback currentUserId flight).flights.map Flight.id =
        (world.land flight).flights.map Flight.id := by
      simp [World.rollback, Function.comp_def, Flight.note]
    rw [ids]
    exact landed.distinct
  · exact forall_mem_map.mpr landed.flightsLt
  · exact forall_mem_cons.mpr ⟨numbered.flightsLt flight isFlying, numbered.failedLt⟩
  · exact numbered.logLt
  · intro p pMem
    change p ∈ (Update.run currentUserId world.state (.failed flight.call flight.snapshot)).pending
      at pMem
    by_cases restores : flight.call.restores = true
    · rw [Update.run_failed_of_restores restores] at pMem
      exact numbered.snapshotUsed flight isFlying p pMem
    · cases isCall : flight.call with
      | sendPending pending =>
        rw [isCall] at pMem
        obtain ⟨old, oldMem, rfl⟩ := List.mem_map.mp pMem
        have used := numbered.stateUsed old oldMem
        split <;> exact used
      | editMessage | deleteMessage | toggleReaction => exact absurd (by rw [isCall]; rfl) restores
  · exact forall_mem_map.mpr landed.snapshotUsed
  · exact forall_mem_cons.mpr ⟨numbered.flightUsed flight isFlying, numbered.failedUsed⟩
  · exact forall_mem_map.mpr landed.flightUsed
  · intro other otherMem
    obtain ⟨old, oldMem, rfl⟩ := List.mem_map.mp otherMem
    have idNe : old.id ≠ flight.id := by simpa using (mem_filter.mp oldMem).2
    have notFailed := landed.notFailed old oldMem
    have sameFailed : (world.rollback currentUserId flight).hasFailed old.id =
        (decide (flight.id = old.id) || world.hasFailed old.id) := rfl
    change (world.rollback currentUserId flight).hasFailed old.id = false
    rw [sameFailed, decide_eq_false idNe.symm, Bool.false_or]
    exact notFailed

/-- A frame takes the entry of no chosen post while another one waits. -/
theorem World.Replays.harmless_event (replays : world.Replays currentUserId)
    {frame : ChatRealtimeEvent Id} {chosen : Nat → Bool}
    (chooses : (world.update currentUserId none (.event frame)).Chooses currentUserId chosen)
    (none_ : world.firstRestoring chosen = none) (numbered : world.Numbered) :
    Update.Harmless currentUserId (world.hides chosen) world.state (.event frame) := by
  cases frame with
  | messageCreated created =>
    intro here isPost echo found isHidden other otherMem notHidden notFailed
    have marked := replays.marked chosen chooses.of_update
    rw [World.base_of_none none_] at marked
    obtain ⟨echoMem, echoNotFailed, -⟩ := echoed_some found
    rcases Bool.or_eq_true_iff.mp isHidden with ofFailed | ofChosen
    · exact absurd (marked echo echoMem ofFailed) echoNotFailed
    · obtain ⟨flight, flightMem, isOwn⟩ := any_eq_true.mp ofChosen
      simp only [Bool.and_eq_true, decide_eq_true_eq] at isOwn
      obtain ⟨noted, notedMem, sameId, undisturbed⟩ := chooses flight.id isOwn.1
      obtain ⟨old, oldMem, rfl⟩ := List.mem_map.mp notedMem
      obtain rfl := inj_on_of_nodup_map numbered.distinct oldMem flightMem sameId
      have otherNe : ¬ old.call.clientTempId = some other.clientTempId := by
        intro isOthers
        have hides : world.hides chosen other.clientTempId = true := by
          simp only [World.hides, Bool.or_eq_true, List.any_eq_true]
          exact .inr ⟨old, oldMem, by simp [isOwn.1, isOthers]⟩
        rw [hides] at notHidden
        cases notHidden
      obtain ⟨id, call, snapshot, since⟩ := old
      cases call with
      | sendPending pending =>
        have sameTempId : pending.clientTempId = echo.clientTempId := some.inj isOwn.2
        apply undisturbed world.state _ created echo (mem_append_right _ (by simp))
          ⟨rfl, here, isPost⟩ found sameTempId.symm other otherMem _ notFailed
        rintro isOthers
        exact otherNe (congrArg some isOthers.symm)
      | editMessage | deleteMessage | toggleReaction => cases isOwn.2
  | messageDeleted | memberAdded | memberRemoved | reactionUpdated => trivial

/-- What holds of the worlds of a run whose failures are of undisturbed calls. -/
structure World.Inv (currentUserId : String) (world : World Id) : Prop where
  numbered : world.Numbered
  replays : world.Replays currentUserId

theorem World.inv_start (state : ChannelViewState Id) : (World.start state).Inv currentUserId where
  numbered :=
    { distinct := .nil
      flightsLt := by simp [World.start]
      failedLt := by simp [World.start]
      logLt := by simp [World.start]
      stateUsed := fun p pMem => mem_map_of_mem pMem
      snapshotUsed := by simp [World.start]
      failedUsed := by simp [World.start]
      flightUsed := by simp [World.start]
      notFailed := by simp [World.start] }
  replays :=
    { replays := by
        intro chosen chooses
        simp [World.base, World.firstRestoring, World.start, World.hides, World.ofFailed, replay,
          without]
      marked := by
        intro chosen chooses p pMem ofFailed
        simp [World.start, World.ofFailed] at ofFailed }

/-- A change by the server is one for all calls that are under way. -/
theorem World.Inv.receive (inv : world.Inv currentUserId)
    (notFailed : ∀ call snapshot, change ≠ .failed call snapshot)
    (notStarted : ∀ p, change ≠ .started (.sendPending p))
    (harmless : ∀ chosen, (world.update currentUserId none change).Chooses currentUserId chosen →
      world.firstRestoring chosen = none →
        change.Harmless currentUserId (world.hides chosen) world.state) :
    (world.update currentUserId none change).Inv currentUserId where
  numbered := inv.numbered.update notFailed nofun notStarted
  replays :=
    inv.replays.update inv.numbered notFailed (fun _ _ => rfl) harmless
      fun p isStart => absurd isStart (notStarted p)

theorem World.Inv.answer (inv : world.Inv currentUserId)
    (isFlying : flight ∈ world.flights) (result : flight.call.Result) :
    ((world.land flight).update currentUserId (some flight.id)
      (.answered flight.call result)).Inv currentUserId := by
  have notFailed : ∀ call snapshot, Update.answered flight.call result ≠ .failed call snapshot := by
    intro call snapshot isFailure
    cases isFailure
  have notStarted : ∀ p, Update.answered flight.call result ≠ .started (.sendPending p) := by
    intro p isStart
    cases isStart
  constructor
  · apply (inv.numbered.land flight).update notFailed _ notStarted
    rintro id isOwner
    cases isOwner
    exact inv.numbered.flightsLt flight isFlying
  · apply (inv.replays.land flight).update (inv.numbered.land flight) notFailed
    · intro chosen chooses
      have notChosen := chooses.of_update.of_land.2
      have isUnder := inv.numbered.notFailed flight isFlying
      change ((world.land flight).hasFailed flight.id || chosen flight.id) = false
      rw [notChosen, Bool.or_false]
      exact isUnder
    · exact fun _ _ _ => trivial
    · exact fun p isStart => absurd isStart (notStarted p)

theorem World.Inv.step (inv : world.Inv currentUserId)
    (step : Step currentUserId (Flight.Undisturbed currentUserId) world after) :
    after.Inv currentUserId := by
  obtain ⟨move, allowed, undisturbed, rfl⟩ := step
  cases move with
  | call made => exact ⟨inv.numbered.begin made, inv.replays.begin inv.numbered allowed⟩
  | answer flight result => exact inv.answer allowed result
  | fail flight =>
    exact ⟨inv.numbered.rollback allowed,
      inv.replays.rollback inv.numbered allowed (undisturbed flight rfl)⟩
  | event frame =>
    apply inv.receive (fun _ _ isFailure => by cases isFailure) fun _ isStart => by cases isStart
    intro chosen chooses noneRestores
    exact inv.replays.harmless_event chooses noneRestores inv.numbered
  | firstPage | olderPage | newerPage =>
    exact inv.receive (fun _ _ isFailure => by cases isFailure)
      (fun _ isStart => by cases isStart) fun _ _ _ => trivial

theorem World.inv_of_reachable
    (reached : Reachable currentUserId (Flight.Undisturbed currentUserId) world) :
    world.Inv currentUserId := by
  obtain ⟨state, steps⟩ := reached
  induction steps with
  | refl => exact World.inv_start state
  | tail _ step ih => exact ih.step step

/-- In runs whose failing calls were not disturbed, a failure undoes the failed call alone. -/
theorem failureUndoesOnlyItself_of_undisturbed :
    FailureUndoesOnlyItself (@Flight.Undisturbed Id _) := by
  intro currentUserId world flight reached isFlying undisturbed
  have inv := World.inv_of_reachable reached
  have replays := inv.replays.rollback inv.numbered isFlying undisturbed
  have nothing : (world.rollback currentUserId flight).Chooses currentUserId fun _ => false :=
    nofun
  have noneFirst : (world.rollback currentUserId flight).firstRestoring (fun _ => false) = none := by
    simp [World.firstRestoring]
  have isBase : (world.rollback currentUserId flight).base (fun _ => false) =
      (world.rollback currentUserId flight).state := by
    simp [World.base, noneFirst]
  have replayed := replays.replays _ nothing
  have marked := replays.marked _ nothing
  have sameHides : (world.rollback currentUserId flight).hides (fun _ => false) =
      (world.rollback currentUserId flight).ofFailed := by
    funext tempId
    simp [World.hides]
  have sameOmits : (world.rollback currentUserId flight).omits (fun _ => false) =
      (world.rollback currentUserId flight).hasFailed := by
    funext id
    simp [World.omits]
  rw [isBase, sameHides, sameOmits] at replayed
  rw [isBase] at marked
  exact ⟨replayed, marked⟩

end Runs

def loadedView : ChannelViewState Nat :=
  { emptyChannelView "channel" with
    messages := [⟨1, "channel", some "user", "report", none, 0, [], [], none, none, 1, "noon"⟩] }

def interruptedEdit : World Nat :=
  ((World.start loadedView).begin "user" (.editMessage 1 "amended" "later")).update "user" none
    (.event (.messageCreated ⟨"channel", 2, "other", "answer", "later", none⟩))

def editFlight : Flight Nat :=
  (⟨0, .editMessage 1 "amended" "later", loadedView, []⟩ : Flight Nat).note
    ((World.start loadedView).begin "user" (.editMessage 1 "amended" "later")).state
    (.event (.messageCreated ⟨"channel", 2, "other", "answer", "later", none⟩))

/-- The message that arrived is gone when the edit fails. -/
theorem not_failureUndoesOnlyItself : ¬ FailureUndoesOnlyItself fun _ (_ : Flight Nat) => True := by
  intro undoes
  have reached : Reachable "user" (fun _ => True) interruptedEdit := by
    have edits : Step "user" (fun _ => True) (World.start loadedView)
        ((World.start loadedView).begin "user" (.editMessage 1 "amended" "later")) :=
      ⟨.call (.editMessage 1 "amended" "later"), nofun, nofun, rfl⟩
    have arrives : Step "user" (fun _ => True)
        ((World.start loadedView).begin "user" (.editMessage 1 "amended" "later"))
        interruptedEdit :=
      ⟨.event (.messageCreated ⟨"channel", 2, "other", "answer", "later", none⟩), trivial,
        nofun, rfl⟩
    exact ⟨loadedView, .tail (.tail .refl edits) arrives⟩
  have undone := undoes "user" interruptedEdit editFlight reached (.head _) trivial
  have sameMessages := congrArg ChannelViewState.messages undone.asWithout
  exact absurd sameMessages (by decide +kernel)

end DubEcosystem.ChatTimeline
