import DubEcosystem.CommanderSystem
import DubEcosystem.InterleavingBystanders
import DubEcosystem.SequentialPrograms

/-!
# commander-service: runs, their events and the pull requests of their tasks

The row of a run is the fold of its events, since both are written at once.  That a sweep
spares a run that has ended, and that a task has every pull request of its events, depends on
what others write between the reads and the writes of an operation.
-/

namespace DubEcosystem.Commander

open Interleaving PortPrograms SequentialPrograms List

def Operation.onRuns : Operation → Bool
  | .appendRunEvent _ _ => true
  | .reconcileOrphanRuns _ => true
  | _ => false

def Operation.isSweep : Operation → Bool
  | .reconcileOrphanRuns _ => true
  | _ => false

/-- What the events of a run, in the order in which they were committed, fold into its row. -/
def Store.foldsOf (store : Store) (runId : String) : List RunFold :=
  (store.runEvents.rows.filter fun event => event.runId = runId).filterMap fun event =>
    foldOf event.type event.payload

def RunFold.status? : RunFold → Option RunStatus
  | .status value => some value
  | .exit _ => none

def RunFold.exit? : RunFold → Option (Option ℚ)
  | .status _ => none
  | .exit code => some code

/-- Status and exit code of a run are those of its last valid events, and else as they were. -/
def Store.FoldsSince (initial store : Store) : Prop :=
  ∀ run ∈ store.runs, ∃ first ∈ initial.runs, first.id = run.id ∧
    run.status = (((store.foldsOf run.id).filterMap RunFold.status?).getLast?).getD first.status ∧
      run.exitCode = (((store.foldsOf run.id).filterMap RunFold.exit?).getLast?).getD first.exitCode

def Store.Harvested (store : Store) : Prop :=
  ∀ event ∈ store.runEvents, ∀ run ∈ store.runs, run.id = event.runId →
    ∀ task ∈ store.tasks, run.taskId = some task.id →
      ∀ url ∈ eventPrUrls event.payload, url ∈ task.prUrls.getD []

/-- Tasks have ids, and no pull request twice. -/
structure Store.TasksProper (store : Store) : Prop where
  named : ∀ task ∈ store.tasks, task.id ≠ ""
  distinct : ∀ task ∈ store.tasks, (task.prUrls.getD []).Nodup

structure RunsKept (runtime : Runtime)
    (condition : RunCondition commanderSignature Store Operation) (store : Store) : Prop where
  /-- The row of a run is the fold of its events. -/
  folded : ∀ config,
    (commanderSystem runtime Operation.onRuns).ReachableUnder condition store config →
      store.FoldsSince config.world
  /-- A sweep appends no event to a run that has ended. -/
  spared : ∀ opts watched event fold urls next,
    (commanderSystem runtime Operation.onRuns).WatchedUnder condition store
      (.reconcileOrphanRuns opts)
      (reconcileOrphanRuns runtime.json runtime.toISOString opts).run watched →
    watched.own = .call (.db (.appendEvent event fold urls)) next →
      ∀ run ∈ watched.world.runs, run.id = event.runId → Store.isOpen run.status = true
  /-- A sweep that is run again changes nothing. -/
  again : ∀ opts config done after outcome final,
    (commanderSystem runtime Operation.onRuns).ReachableUnder condition store config →
    Reaches commanderMachine (reconcileOrphanRuns runtime.json runtime.toISOString opts).run
      config.world (some (.ok done)) after →
    Reaches commanderMachine (reconcileOrphanRuns runtime.json runtime.toISOString opts).run
      after outcome final →
      final = after
  /-- A task has every pull request of the events of its runs. -/
  harvested : ∀ config,
    (commanderSystem runtime Operation.onRuns).ReachableUnder condition store config →
      config.world.Harvested
  /-- The backfill adds no pull request. -/
  backfilled : ∀ config outcome after,
    (commanderSystem runtime Operation.onRuns).ReachableUnder condition store config →
    Reaches commanderMachine (backfillTaskUrls runtime.json).run config.world outcome after →
      ∀ task ∈ config.world.tasks, ∀ later ∈ after.tasks, later.id = task.id →
        ∀ url ∈ later.prUrls.getD [], url ∈ task.prUrls.getD []

def RunsFold (condition : RunCondition commanderSignature Store Operation) (runtime : Runtime) :
    Prop :=
  ∀ store, store.TasksProper → store.FoldsSince store → store.Harvested →
    RunsKept runtime condition store

def Call.SelectsOpenRuns : Call → Prop
  | .db (.selectOpenRuns _ _) => True
  | _ => False

def Call.AppendsTo (runId : String) : Call → Prop
  | .db (.appendEvent event _ _) => event.runId = runId
  | _ => False

variable (taskId : String)

def Call.ReadsPrUrls : Call → Prop
  | .db (.selectPrUrls id) => id = taskId
  | _ => False

/-- The pull requests that are written to a task. -/
def Call.WritesPrUrls : Call → Prop
  | .db (.appendEvent _ _ (some (id, sets))) => id = taskId ∧ sets.prUrls.isSome = true
  | _ => False

def sweeps (runId : String) (thread : Operation × Prog commanderSignature Unit) : Prop :=
  thread.1.isSweep = true ∧ thread.2.MayReach Call.SelectsOpenRuns (Call.AppendsTo runId)

/-- An operation that has read the pull requests of the task, and may still write them. -/
def mergesPrUrls (thread : Operation × Prog commanderSignature Unit) : Prop :=
  thread.2.MayReach (Call.ReadsPrUrls taskId) (Call.WritesPrUrls taskId)

def RunFold.settles : RunFold → Bool
  | .status value => !Store.isOpen value
  | .exit _ => false

/-- A run ends only while no other sweep has still to append to it, and the pull requests of
a task are written only while nothing else that has read them has still to write them. -/
def appendsApart : RunCondition commanderSignature Store Operation where
  mayCall
    | .db (.appendEvent event fold urls), _, others =>
      (fold.any RunFold.settles = true → ∀ thread ∈ others, ¬sweeps event.runId thread) ∧
      ∀ taskId sets, urls = some (taskId, sets) → sets.prUrls.isSome = true →
        ∀ thread ∈ others, ¬mergesPrUrls taskId thread
    | _, _, _ => True
  mayStop _ := True

/-- What is known of the run that an event is appended to: its task, and then what was read
of that task for these pull requests. -/
inductive Known where
  | nothing
  | owner (runId : String) (taskId : Option String)
  | stored (runId taskId : String) (prior prs : List String)

/-- Pull requests have been read that are to be written back with others. -/
def Known.Merges : Known → Prop
  | .stored _ id prior prs => id = taskId ∧ prior.length < (mergePrUrls prior prs).length
  | _ => False

/-- A sweep has still to fail some runs, and has found others to be missing. -/
structure RunPhase where
  sweeping : Bool
  remaining : List String
  missing : List String
  known : Known

def RunPhase.misses (phase : RunPhase) (runId : String) : RunPhase :=
  { phase with
    remaining := phase.remaining.filter fun id => id ≠ runId
    missing := runId :: phase.missing }

def RunPhase.appends (phase : RunPhase) (runId : String) (fold : Option RunFold) : RunPhase :=
  { phase with
    remaining :=
      if fold.any RunFold.settles then phase.remaining.filter fun id => id ≠ runId
      else phase.remaining
    known := .nothing }

def RunPhase.fails (phase : RunPhase) : RunPhase :=
  ⟨phase.sweeping, [], [], .nothing⟩

def Known.Fits (event : RunEventRow) (urls : Option (String × TaskUrls)) : Known → Prop
  | .nothing => False
  | .owner runId taskId => runId = event.runId ∧
      (∀ task, taskId = some task → task ≠ "" → eventPrUrls event.payload = []) ∧
        ∀ task sets, urls = some (task, sets) → sets.prUrls = none
  | .stored runId taskId prior prs => runId = event.runId ∧ prs = eventPrUrls event.payload ∧
      if prior.length < (mergePrUrls prior prs).length then
        ∃ sets, urls = some (taskId, sets) ∧ sets.prUrls = some (mergePrUrls prior prs)
      else ∀ task sets, urls = some (task, sets) → sets.prUrls = none

/-- A sweep appends to a run that it has still to fail, or that is missing. -/
def RunPhase.MayAppend (phase : RunPhase) (runId : String) : Prop :=
  phase.sweeping = true → runId ∈ phase.remaining ∨ runId ∈ phase.missing

inductive RunPhase.Leads :
    RunPhase → (request : Call) → Except CommanderError (Call.Result request) → RunPhase → Prop
  | clock {phase request answer} (isClock : request.IsClock) : Leads phase request answer phase
  | looks {phase id} {run : RunRow} (isIdle : phase.known = .nothing) :
      Leads phase (.db (.selectRun id)) (.ok (some run))
        { phase with known := .owner id run.taskId }
  | misses {phase id} (isIdle : phase.known = .nothing) :
      Leads phase (.db (.selectRun id)) (.ok none) (phase.misses id)
  | reads {phase runId taskId} {stored : Option (Option (List String))} (prs : List String)
      (isKnown : phase.known = .owner runId (some taskId)) :
      Leads phase (.db (.selectPrUrls taskId)) (.ok stored)
        { phase with known := .stored runId taskId ((stored.bind id).getD []) prs }
  | appends {phase event urls} (fits : phase.known.Fits event urls)
      (mayAppend : phase.MayAppend event.runId) :
      Leads phase (.db (.appendEvent event (foldOf event.type event.payload) urls)) (.ok ())
        (phase.appends event.runId (foldOf event.type event.payload))
  | selects {phase ids before} {found : List String} (kept : List String)
      (isSweep : phase.sweeping = true) (isDone : phase.remaining = []) (isIdle : phase.known = .nothing)
      (fromFound : ∀ id ∈ kept, id ∈ found) :
      Leads phase (.db (.selectOpenRuns ids before)) (.ok found) { phase with remaining := kept }
  | thrown {phase request error} : Leads phase request (.error error) phase.fails

def SelectsOnce : (request : Call) → Except CommanderError (Call.Result request) → Prop
  | .db (.selectOpenRuns _ _), .ok (found : List String) => found.Nodup
  | _, _ => True

def RunPhase.Ended (phase : RunPhase) : Prop :=
  phase.remaining = [] ∧ phase.known = .nothing

def runProtocol : Protocol commanderSignature RunPhase where
  possible := SelectsOnce
  leads := RunPhase.Leads
  final := RunPhase.Ended

variable {phase : RunPhase} {json : JsonText}

theorem follows_clock {α : Type} {request : Call}
    {continuation : Call.Result request → CommanderM α}
    {post : Except CommanderError α → RunPhase → Prop} (isClock : request.IsClock)
    (fails : ∀ error, post (.error error) phase.fails)
    (rest : ∀ result, Follows runProtocol phase (continuation result) post) :
    Follows runProtocol phase (ask request >>= continuation) post := by
  apply follows_port_bind
  · exact fun result _ => ⟨phase, .clock isClock, rest result⟩
  · exact fun thrown _ => ⟨phase.fails, .thrown, fails thrown⟩

theorem urlSets_prUrls {found : ExtractedUrls} {prUrls : Option (List String)} {sets : TaskUrls}
    (isSome : urlSets found prUrls = some sets) : sets.prUrls = prUrls := by
  simp only [urlSets] at isSome
  split at isSome
  · cases isSome
  · cases isSome
    rfl

theorem exists_urlSets (found : ExtractedUrls) (merged : List String) :
    ∃ sets, urlSets found (some merged) = some sets ∧ sets.prUrls = some merged := by
  simp only [urlSets]
  rw [if_neg]
  · exact ⟨_, rfl, rfl⟩
  · intro isNone
    cases congrArg TaskUrls.prUrls isNone

/-- What is read of the task fits what is set in it. -/
theorem harvest_follows (event : RunEventRow) {taskId : Option String}
    (isKnown : phase.known = .owner event.runId taskId) :
    Follows runProtocol phase (harvest json taskId event.payload) fun
      | .ok urls, after => ∃ known, after = { phase with known } ∧ known.Fits event urls
      | .error _, after => after = phase.fails := by
  have unchanged : { phase with known := .owner event.runId taskId } = phase := by
    rw [← isKnown]
  unfold harvest
  cases owned : taskId.filter fun id => id ≠ "" with
  | none =>
    apply follows_pure
    refine ⟨.owner event.runId taskId, unchanged.symm, rfl, ?_, ?_⟩
    · rintro task rfl notEmpty
      simp [notEmpty] at owned
    · intro task sets isSome
      cases isSome
  | some task =>
    obtain ⟨rfl, notEmpty⟩ : taskId = some task ∧ task ≠ "" := by
      simpa [Option.filter_eq_some_iff] using owned
    have setsNone : ∀ other sets,
        (urlSets (extractEventUrls json event.payload) none).map (fun urls => (task, urls)) =
          some (other, sets) → sets.prUrls = none := by
      intro other sets isSome
      obtain ⟨urls, isUrls, isPair⟩ := Option.map_eq_some_iff.mp isSome
      cases isPair
      exact urlSets_prUrls isUrls
    apply follows_bind
    unfold mergedPrUrls
    split
    · rename_i nothing
      apply follows_pure
      apply follows_pure
      exact ⟨.owner event.runId (some task), unchanged.symm, rfl, fun _ _ _ => nothing, setsNone⟩
    · apply follows_port_bind
      · intro stored _
        refine ⟨_, .reads (eventPrUrls event.payload) isKnown, ?_⟩
        apply follows_pure
        apply follows_pure
        refine ⟨_, rfl, rfl, rfl, ?_⟩
        split
        · obtain ⟨sets, isSome, isMerged⟩ := exists_urlSets (extractEventUrls json event.payload)
            (mergePrUrls ((stored.bind id).getD []) (eventPrUrls event.payload))
          exact ⟨sets, by rw [isSome]; rfl, isMerged⟩
        · exact setsNone
      · exact fun thrown _ => ⟨phase.fails, .thrown, rfl⟩

variable {input : RunEventInput}

theorem appendRunEvent_follows {runId : String}
    (isIdle : phase.known = .nothing) (mayAppend : phase.MayAppend runId) :
    Follows runProtocol phase (appendRunEvent json runId input) fun
      | .ok _, after => after = phase.misses runId ∨
          after = phase.appends runId (foldOf input.type input.payloadOf)
      | .error _, after => after = phase.fails := by
  apply follows_port_bind
  · rintro (_ | run) -
    · exact ⟨_, .misses isIdle, follows_pure (.inl rfl)⟩
    refine ⟨_, .looks isIdle, ?_⟩
    apply follows_clock
    · exact trivial
    · exact fun _ => rfl
    intro id
    have appends : ∀ at' : String, Follows runProtocol
        { phase with known := .owner runId run.taskId }
        (do
          let event : RunEventRow := ⟨id, runId, input.type, input.payloadOf, at'⟩
          let urls ← harvest json run.taskId event.payload
          query (.appendEvent event (foldOf event.type event.payload) urls)
          pure (some event) : CommanderM (Option RunEventRow)) fun
        | .ok _, after => after = phase.misses runId ∨
            after = phase.appends runId (foldOf input.type input.payloadOf)
        | .error _, after => after = phase.fails := by
      intro at'
      apply follows_bind
      apply (harvest_follows ⟨id, runId, input.type, input.payloadOf, at'⟩ rfl).mono
      rintro (thrown | urls) after ended
      · exact ended
      obtain ⟨known, rfl, fits⟩ := ended
      apply follows_port_bind
      · rintro ⟨⟩ _
        exact ⟨_, .appends fits mayAppend, follows_pure (.inr rfl)⟩
      · exact fun thrown _ => ⟨_, .thrown, rfl⟩
    split
    · exact follows_bind (follows_pure (appends _))
    · apply follows_clock
      · exact trivial
      · exact fun _ => rfl
      exact appends
  · exact fun thrown _ => ⟨_, .thrown, rfl⟩

/-- A sweep has come to this run: it has still to fail it, or has found it missing. -/
structure RunPhase.Visits (phase : RunPhase) (id : String) (after : RunPhase) : Prop where
  sweeping : after.sweeping = phase.sweeping
  isIdle : after.known = .nothing
  remaining : (after.remaining = phase.remaining ∧ id ∈ phase.remaining) ∨
    (after.remaining = phase.remaining.filter (fun other => other ≠ id) ∧ id ∈ after.missing)

variable {id : String} {between : RunPhase}

theorem RunPhase.Visits.mayAppend (visits : phase.Visits id between) : between.MayAppend id := by
  intro _
  rcases visits.remaining with ⟨same, member⟩ | ⟨-, member⟩
  · exact .inl (same ▸ member)
  · exact .inr member

theorem RunPhase.Visits.filter_remaining (visits : phase.Visits id between) :
    between.remaining.filter (fun other => other ≠ id) =
      phase.remaining.filter fun other => other ≠ id := by
  rcases visits.remaining with ⟨same, -⟩ | ⟨filtered, -⟩
  · rw [same]
  · rw [filtered, filter_filter]
    simp

theorem visit_follows (visits : phase.Visits id between)
    (goesOn : (foldOf input.type input.payloadOf).any RunFold.settles = false) :
    Follows runProtocol between (appendRunEvent json id input) fun
      | .ok _, after => phase.Visits id after
      | .error _, after => after.Ended := by
  apply (appendRunEvent_follows visits.isIdle visits.mayAppend).mono
  rintro (thrown | event) after ended
  · rw [ended]
    exact ⟨rfl, rfl⟩
  · rcases ended with rfl | rfl
    · exact ⟨visits.sweeping, visits.isIdle, .inr ⟨visits.filter_remaining, .head _⟩⟩
    · refine ⟨visits.sweeping, rfl, ?_⟩
      simp only [RunPhase.appends, goesOn]
      exact visits.remaining

variable {toISOString : Int → String}

theorem failRun_follows {line : String} (visits : phase.Visits id phase) :
    Follows runProtocol phase (failRun json toISOString line id) fun
      | .ok _, after => after.sweeping = phase.sweeping ∧ after.known = .nothing ∧
          after.remaining = phase.remaining.filter fun other => other ≠ id
      | .error _, after => after.Ended := by
  apply follows_clock
  · exact trivial
  · exact fun _ => ⟨rfl, rfl⟩
  intro start
  apply follows_bind
  apply (visit_follows visits rfl).mono
  rintro (thrown | _) noticed isNoticed
  · exact isNoticed
  apply follows_bind
  apply (visit_follows isNoticed rfl).mono
  rintro (thrown | _) exited isExited
  · exact isExited
  apply follows_bind
  apply (appendRunEvent_follows isExited.isIdle isExited.mayAppend).mono
  rintro (thrown | _) failed isFailed
  · rw [isFailed]
    exact ⟨rfl, rfl⟩
  apply follows_pure
  rcases isFailed with rfl | rfl
  · exact ⟨isExited.sweeping, isExited.isIdle, isExited.filter_remaining⟩
  · exact ⟨isExited.sweeping, rfl, isExited.filter_remaining⟩

/-- The runs that were selected are failed one after the other. -/
theorem failRuns_follows {exceptIds : List String} {line : String}
    {ids : List String} (distinct : ids.Nodup) (isIdle : phase.known = .nothing)
    (remaining : phase.remaining = ids.filter fun id => id ∉ exceptIds) :
    Follows runProtocol phase (failRuns json toISOString exceptIds line ids) fun _ after =>
      after.Ended := by
  induction ids generalizing phase with
  | nil => exact follows_pure ⟨remaining, isIdle⟩
  | cons id rest ih =>
    obtain ⟨notIn, distinct⟩ := nodup_cons.mp distinct
    unfold failRuns
    split
    · rename_i excepted
      apply ih distinct isIdle
      rw [remaining, filter_cons_of_neg (by simpa using excepted)]
    · rename_i listed
      rw [filter_cons_of_pos (by simpa using listed)] at remaining
      have visits : phase.Visits id phase :=
        ⟨rfl, isIdle, .inl ⟨rfl, remaining ▸ (.head _)⟩⟩
      apply follows_bind
      apply (failRun_follows visits).mono
      rintro (thrown | _) failed isFailed
      · exact isFailed
      obtain ⟨-, isIdle, filtered⟩ := isFailed
      apply follows_bind
      apply (ih distinct isIdle _).mono
      · rintro (thrown | done) after ended
        · exact ended
        · exact follows_pure ended
      · rw [filtered, remaining, filter_cons_of_neg (by simp)]
        apply filter_eq_self.mpr
        intro other member
        rw [decide_eq_true_eq]
        rintro rfl
        exact notIn (mem_of_mem_filter member)

theorem reconcileOrphanRuns_follows {toISOString : Int → String} {opts : ReconcileOptions} :
    Follows runProtocol ⟨true, [], [], .nothing⟩ (reconcileOrphanRuns json toISOString opts)
      fun _ after => after.Ended := by
  unfold reconcileOrphanRuns
  split
  · exact follows_pure ⟨rfl, rfl⟩
  · apply follows_port_bind
    · intro found isPossible
      refine ⟨_, .selects ((found : List String).filter fun id => id ∉ opts.exceptIds) rfl rfl rfl
        fun id member => mem_of_mem_filter member, ?_⟩
      exact failRuns_follows isPossible rfl rfl
    · exact fun thrown _ => ⟨_, .thrown, rfl, rfl⟩

def RunPhase.first (op : Operation) : RunPhase :=
  ⟨op.isSweep, [], [], .nothing⟩

theorem actionOf_follows {runtime : Runtime} {op : Operation} (onRuns : op.onRuns = true) :
    runProtocol.Follows (.first op) ((actionOf runtime op).run >>= fun _ => pure ()) := by
  cases op with
  | appendRunEvent runId input =>
    apply silently_follows
    apply (appendRunEvent_follows rfl fun isSweep => by cases isSweep).mono
    rintro (thrown | event) after ended
    · rw [ended]
      exact ⟨rfl, rfl⟩
    · rcases ended with rfl | rfl
      · exact ⟨rfl, rfl⟩
      · simp [RunPhase.appends, RunPhase.first, runProtocol, RunPhase.Ended]
  | reconcileOrphanRuns opts => exact silently_follows reconcileOrphanRuns_follows
  | _ => cases onRuns

end DubEcosystem.Commander
