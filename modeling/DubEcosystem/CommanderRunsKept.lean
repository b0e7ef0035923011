import DubEcosystem.CommanderRuns

/-!
# commander-service: what holds of runs while events are appended

An append is described once, by what it does to the events, the runs and the tasks.
-/

namespace DubEcosystem.Commander

open Interleaving PortPrograms SequentialPrograms List KeyedTable Option Except

section Appends

/-- The pull requests that are set in a task. -/
def prUrlsFor (taskId : String) (urls : Option (String × TaskUrls)) : Option (List String) :=
  (urls.filter fun entry => entry.1 = taskId).bind fun entry => entry.2.prUrls

structure Appended (store : Store) (event : RunEventRow) (fold : Option RunFold)
    (urls : Option (String × TaskUrls)) (after : Store) : Prop where
  isThere : ∃ run ∈ store.runs, run.id = event.runId
  events : after.runEvents.rows = store.runEvents.rows ++ [event]
  runs : ∀ later ∈ after.runs, ∃ run ∈ store.runs,
    later.id = run.id ∧ later.taskId = run.taskId ∧ later.createdAt = run.createdAt ∧
      later.status = (if run.id = event.runId then
        (fold.bind RunFold.status?).getD run.status else run.status) ∧
      later.exitCode = (if run.id = event.runId then
        (fold.bind RunFold.exit?).getD run.exitCode else run.exitCode)
  tasks : ∀ later ∈ after.tasks, ∃ task ∈ store.tasks,
    later.id = task.id ∧ later.prUrls = (prUrlsFor task.id urls).or task.prUrls

variable {store after : Store} {event : RunEventRow} {fold : Option RunFold}
  {urls : Option (String × TaskUrls)}

theorem Store.mem_updateRun {later : RunRow} {runId at' : String}
    (member : later ∈ (store.updateRun runId fold at').runs) : ∃ run ∈ store.runs,
    later.id = run.id ∧ later.taskId = run.taskId ∧ later.createdAt = run.createdAt ∧
      later.status = (if run.id = runId then
        (fold.bind RunFold.status?).getD run.status else run.status) ∧
      later.exitCode = (if run.id = runId then
        (fold.bind RunFold.exit?).getD run.exitCode else run.exitCode) := by
  cases fold with
  | none => exact ⟨later, member, rfl, rfl, rfl, by simp, by simp⟩
  | some fold =>
    simp only [Store.updateRun, mem_update] at member
    obtain ⟨run, runMem, rfl⟩ := member
    refine ⟨run, runMem, ?_⟩
    by_cases isRun : run.id = runId
    · cases fold <;> simp [isRun, Store.folded, RunFold.status?, RunFold.exit?]
    · simp [isRun]

theorem Store.mem_updateTaskUrls {later : TaskRow} {taskId at' : String} {sets : TaskUrls}
    (member : later ∈ (store.updateTaskUrls taskId sets at').tasks) : ∃ task ∈ store.tasks,
    later.id = task.id ∧
      later.prUrls = (prUrlsFor task.id (some (taskId, sets))).or task.prUrls := by
  simp only [Store.updateTaskUrls, mem_update] at member
  obtain ⟨task, taskMem, rfl⟩ := member
  refine ⟨task, taskMem, ?_⟩
  by_cases isTask : task.id = taskId
  · simp [isTask, prUrlsFor, Option.filter]
  · simp [isTask, prUrlsFor, Option.filter, Ne.symm isTask]

theorem Store.appendEvent_cases (store : Store) (event : RunEventRow) (fold : Option RunFold)
    (urls : Option (String × TaskUrls)) :
    (∃ message, store.appendEvent event fold urls = (.error message, store)) ∨
      ∃ after, store.appendEvent event fold urls = (.ok (), after) ∧
        Appended store event fold urls after := by
  unfold Store.appendEvent
  split
  · rename_i isThere
    split
    · exact .inl ⟨_, rfl⟩
    · rename_i runEvents inserted
      obtain ⟨run, runMem, isRun⟩ := selects_eq_true.mp isThere
      have events := (insert?_eq_some inserted).1
      refine .inr ⟨_, rfl, ⟨run, runMem, of_decide_eq_true isRun⟩, ?_, ?_, ?_⟩
      · cases fold <;> cases urls <;> exact events
      · intro later member
        apply @Store.mem_updateRun { store with runEvents }
        cases urls <;> exact member
      · intro later member
        cases urls with
        | none => exact ⟨later, by cases fold <;> exact member, rfl, rfl⟩
        | some urls =>
          obtain ⟨task, taskMem, same⟩ := Store.mem_updateTaskUrls member
          exact ⟨task, by cases fold <;> exact taskMem, same⟩
  · exact .inl ⟨_, rfl⟩

theorem appended_of_answers
    (answers : commanderMachine.Answers (.db (.appendEvent event fold urls)) store (.ok ()) after) :
    Appended store event fold urls after := by
  obtain ⟨isOk, rfl⟩ := answers_db answers
  rcases store.appendEvent_cases event fold urls with ⟨message, same⟩ | ⟨moved, same, appended⟩
  · simp only [Store.exec, same] at isOk
    cases isOk
  · simp only [Store.exec, same]
    exact appended

end Appends

section Guards

def Known.Holds (store : Store) : Known → Prop
  | .nothing => True
  | .owner runId taskId => ∀ run ∈ store.runs, run.id = runId → run.taskId = taskId
  | .stored runId taskId prior prs =>
    (∀ run ∈ store.runs, run.id = runId → run.taskId = some taskId) ∧
      ∀ task ∈ store.tasks, task.id = taskId → prior.Nodup ∧
        (∀ url ∈ prior, url ∈ task.prUrls.getD []) ∧
          (prior.length < (mergePrUrls prior prs).length → ∀ url ∈ task.prUrls.getD [], url ∈ prior)

/-- The runs that a sweep has still to fail are open, and those it has missed are not there. -/
structure RunPhase.Holds (store : Store) (phase : RunPhase) : Prop where
  remaining : ∀ id ∈ phase.remaining, ∀ run ∈ store.runs, run.id = id →
    Store.isOpen run.status = true
  missing : ∀ id ∈ phase.missing, ∀ run ∈ store.runs, run.id ≠ id
  known : phase.known.Holds store

def RunPhase.Owns (op : Operation) (phase : RunPhase) : Prop :=
  phase.sweeping = op.isSweep ∧ (phase.sweeping = false → phase.remaining = [])

structure RunsInvariant (initial store : Store) : Prop where
  folded : initial.FoldsSince store
  harvested : store.Harvested
  proper : store.TasksProper

variable {store after : Store} {event : RunEventRow} {urls : Option (String × TaskUrls)}
  {phase : RunPhase}

theorem calmly_possible (request : Call) : runProtocol.possible request (calmly request) := by
  cases request with
  | db statement => cases statement <;> first | exact trivial | exact nodup_nil
  | _ => exact trivial

def RunPhase.MayFail (runId : String) (phase : RunPhase) : Prop :=
  runId ∈ phase.remaining

def RunPhase.Merges (taskId : String) (phase : RunPhase) : Prop :=
  phase.known.Merges taskId

variable {thread : Operation × Prog commanderSignature Unit}

theorem sweeps_of_remaining {runId : String} (owned : RunPhase.Owns thread.1 phase)
    (follows : runProtocol.Follows phase thread.2) (member : phase.MayFail runId) :
    sweeps runId thread := by
  constructor
  · rw [← owned.1]
    by_contra notSweep
    rw [RunPhase.MayFail, owned.2 (Bool.not_eq_true _ ▸ notSweep)] at member
    exact not_mem_nil member
  apply follows.mayReach_of_answer member _ calmly calmly_possible
  · intro phase request later isIn leads
    generalize calmed : calmly request = answer at leads
    cases leads with
    | clock isClock =>
      right
      constructor
      · cases request <;> first | exact isClock.elim | exact not_false
      · exact isIn
    | looks | reads => exact .inr ⟨not_false, isIn⟩
    | misses => cases calmed
    | @appends event urls fits mayAppend =>
      by_cases isRun : event.runId = runId
      · exact .inl isRun
      · refine .inr ⟨not_false, ?_⟩
        simp only [RunPhase.MayFail, RunPhase.appends]
        split
        · exact mem_filter.mpr ⟨isIn, by simpa using Ne.symm isRun⟩
        · exact isIn
    | selects kept isSweep isDone =>
      rw [RunPhase.MayFail, isDone] at isIn
      exact absurd isIn not_mem_nil
    | thrown =>
      cases request with
      | db statement => cases statement <;> cases calmed
      | _ => cases calmed
  · intro phase isIn ended
    rw [RunPhase.MayFail, ended.1] at isIn
    exact not_mem_nil isIn

/-- Pull requests that were read to be written with others may be written. -/
theorem mergesPrUrls_of_known {taskId : String} (follows : runProtocol.Follows phase thread.2)
    (merges : phase.Merges taskId) : mergesPrUrls taskId thread := by
  apply follows.mayReach_of_answer merges _ calmly calmly_possible
  · intro phase request later merges leads
    generalize calmed : calmly request = answer at leads
    cases leads with
    | clock isClock =>
      right
      constructor
      · cases request <;> first | exact isClock.elim | exact not_false
      · exact merges
    | looks isIdle | selects kept isSweep isDone isIdle =>
      rw [RunPhase.Merges, isIdle] at merges
      exact merges.elim
    | misses => cases calmed
    | reads prs isKnown =>
      rw [RunPhase.Merges, isKnown] at merges
      exact merges.elim
    | @appends event urls fits mayAppend =>
      left
      rw [RunPhase.Merges] at merges
      cases isKnown : phase.known with
      | stored runId id prior prs =>
        rw [isKnown] at merges fits
        obtain ⟨rfl, longer⟩ := merges
        obtain ⟨-, -, fits⟩ := fits
        rw [if_pos longer] at fits
        obtain ⟨sets, rfl, isMerged⟩ := fits
        exact ⟨rfl, isMerged ▸ rfl⟩
      | _ =>
        rw [isKnown] at merges
        exact merges.elim
    | thrown =>
      cases request with
      | db statement => cases statement <;> cases calmed
      | _ => cases calmed
  · intro phase merges ended
    rw [RunPhase.Merges, ended.2] at merges
    exact merges

variable {request : Call} {answer : Except CommanderError (Call.Result request)}
  {later : RunPhase} {moved : Store}

/-- What is read leaves the store alone, and nothing else is written than events. -/
theorem moves_of_leads (leads : phase.Leads request answer later)
    (answers : commanderMachine.Answers request store answer moved) :
    moved = store ∨ ∃ event urls,
      request = .db (.appendEvent event (foldOf event.type event.payload) urls) ∧
      later = phase.appends event.runId (foldOf event.type event.payload) ∧
      phase.known.Fits event urls ∧ phase.MayAppend event.runId ∧
      Appended store event (foldOf event.type event.payload) urls moved := by
  cases leads with
  | clock isClock =>
    left
    cases request with
    | db statement => exact isClock.elim
    | _ => exact answers
  | looks | misses | reads | selects => exact .inl (answers_db answers).2
  | appends fits mayAppend =>
    exact .inr ⟨_, _, rfl, rfl, fits, mayAppend, appended_of_answers answers⟩
  | thrown => exact .inl (store_of_error answers)

theorem last_filterMap {α : Type} (folds : List RunFold) (fold : Option RunFold)
    (part : RunFold → Option α) :
    ((folds ++ fold.toList).filterMap part).getLast? =
      (fold.bind part).or (folds.filterMap part).getLast? := by
  rw [filterMap_append, getLast?_append]
  cases fold with
  | none => rfl
  | some fold => cases isPart : part fold <;> simp [isPart]

theorem Appended.folded {initial : Store} (folded : initial.FoldsSince store)
    (appended : Appended store event (foldOf event.type event.payload) urls after) :
    initial.FoldsSince after := by
  intro later laterMem
  obtain ⟨run, runMem, sameId, -, -, status, exitCode⟩ := appended.runs later laterMem
  obtain ⟨first, firstMem, isFirst, wasStatus, wasExit⟩ := folded run runMem
  refine ⟨first, firstMem, isFirst.trans sameId.symm, ?_⟩
  have folds : after.foldsOf later.id = store.foldsOf run.id ++
      (if run.id = event.runId then foldOf event.type event.payload else none).toList := by
    rw [Store.foldsOf, appended.events, sameId, filter_append, filterMap_append, Store.foldsOf]
    by_cases isRun : run.id = event.runId
    · cases fold : foldOf event.type event.payload <;> simp [isRun, fold]
    · simp [isRun, Ne.symm isRun]
  rw [folds, last_filterMap, last_filterMap, Option.getD_or, Option.getD_or, ← wasStatus,
    ← wasExit, status, exitCode]
  by_cases isRun : run.id = event.runId
  · simp only [if_pos isRun, and_self]
  · simp [if_neg isRun]

/-- What an append leaves in a task: what was there, and the pull requests of the event. -/
theorem Appended.harvests (appended : Appended store event fold urls after)
    (proper : store.TasksProper) {known : Known} (isKnown : known.Holds store)
    (fits : known.Fits event urls) {later : TaskRow} (member : later ∈ after.tasks) :
    ∃ task ∈ store.tasks, later.id = task.id ∧ (later.prUrls.getD []).Nodup ∧
      (∀ url ∈ task.prUrls.getD [], url ∈ later.prUrls.getD []) ∧
      ∀ run ∈ store.runs, run.id = event.runId → run.taskId = some task.id →
        ∀ url ∈ eventPrUrls event.payload, url ∈ later.prUrls.getD [] := by
  obtain ⟨task, taskMem, sameId, prUrls⟩ := appended.tasks later member
  refine ⟨task, taskMem, sameId, ?_⟩
  have untouched : prUrlsFor task.id urls = none →
      later.prUrls = task.prUrls := fun isNone => by rw [prUrls, isNone, Option.none_or]
  cases isCase : known with
  | nothing =>
    rw [isCase] at fits
    exact fits.elim
  | owner runId taskId =>
    rw [isCase] at fits isKnown
    obtain ⟨rfl, nothing, setsNone⟩ := fits
    have isNone : prUrlsFor task.id urls = none := by
      cases urls with
      | none => rfl
      | some entry =>
        by_cases isTask : entry.1 = task.id
        · simp [prUrlsFor, Option.filter, isTask, setsNone entry.1 entry.2 rfl]
        · simp [prUrlsFor, Option.filter, isTask]
    rw [untouched isNone]
    refine ⟨proper.distinct task taskMem, fun url isIn => isIn, ?_⟩
    intro run runMem isRun isTask url isIn
    rw [nothing task.id ((isKnown run runMem isRun).symm.trans isTask)
      (proper.named task taskMem)] at isIn
    exact absurd isIn not_mem_nil
  | stored runId taskId prior prs =>
    rw [isCase] at fits isKnown
    obtain ⟨rfl, rfl, fits⟩ := fits
    obtain ⟨isOwner, isStored⟩ := isKnown
    by_cases longer : prior.length < (mergePrUrls prior (eventPrUrls event.payload)).length
    · rw [if_pos longer] at fits
      obtain ⟨sets, rfl, isMerged⟩ := fits
      by_cases isTask : task.id = taskId
      · obtain ⟨-, -, within⟩ := isStored task taskMem isTask
        have written : later.prUrls = some (mergePrUrls prior (eventPrUrls event.payload)) := by
          rw [prUrls]
          simp [prUrlsFor, Option.filter, isTask, isMerged]
        rw [written]
        refine ⟨nodup_mergePrUrls _ _, ?_, ?_⟩
        · exact fun url isIn => mem_mergePrUrls.mpr (.inl (within longer url isIn))
        · exact fun run _ _ _ url isIn => mem_mergePrUrls.mpr (.inr isIn)
      · have isNone : prUrlsFor task.id (some (taskId, sets)) = none := by
          simp [prUrlsFor, Option.filter, Ne.symm isTask]
        rw [untouched isNone]
        refine ⟨proper.distinct task taskMem, fun url isIn => isIn, ?_⟩
        intro run runMem isRun isOther
        cases (isOwner run runMem isRun).symm.trans isOther
        exact absurd rfl isTask
    · rw [if_neg longer] at fits
      have isNone : prUrlsFor task.id urls = none := by
        cases urls with
        | none => rfl
        | some entry =>
          by_cases isTask : entry.1 = task.id
          · simp [prUrlsFor, Option.filter, isTask, fits entry.1 entry.2 rfl]
          · simp [prUrlsFor, Option.filter, isTask]
      rw [untouched isNone]
      refine ⟨proper.distinct task taskMem, fun url isIn => isIn, ?_⟩
      intro run runMem isRun isTask url isIn
      have isTask : task.id = taskId := by
        cases (isOwner run runMem isRun).symm.trans isTask
        rfl
      obtain ⟨distinct, isPrior, -⟩ := isStored task taskMem isTask
      exact isPrior url (mem_prior_of_length distinct longer isIn)

/-- A run stays open unless this event ends it. -/
theorem Appended.isOpen (appended : Appended store event fold urls after) {later : RunRow}
    (member : later ∈ after.runs)
    (wasOpen : ∀ run ∈ store.runs, run.id = later.id → Store.isOpen run.status = true)
    (goesOn : later.id = event.runId → fold.any RunFold.settles = false) :
    Store.isOpen later.status = true := by
  obtain ⟨run, runMem, sameId, -, -, status, -⟩ := appended.runs later member
  have isOpen := wasOpen run runMem sameId.symm
  rw [status]
  split
  · rename_i isRun
    have settles := goesOn (sameId.trans isRun)
    cases fold with
    | none => exact isOpen
    | some fold =>
      cases fold with
      | status value => simpa [RunFold.settles, RunFold.status?] using settles
      | exit code => exact isOpen
  · exact isOpen

theorem Known.Holds.appended {known : Known} (isKnown : known.Holds store)
    (appended : Appended store event fold urls after)
    (grows : ∀ later ∈ after.tasks, ∀ task ∈ store.tasks, later.id = task.id →
      ∀ url ∈ task.prUrls.getD [], url ∈ later.prUrls.getD [])
    (keeps : ∀ taskId, known.Merges taskId → prUrlsFor taskId urls = none) :
    known.Holds after := by
  cases known with
  | nothing => exact trivial
  | owner runId taskId =>
    intro later member isRun
    obtain ⟨run, runMem, sameId, sameTask, -⟩ := appended.runs later member
    rw [sameTask]
    exact isKnown run runMem (sameId.symm.trans isRun)
  | stored runId taskId prior prs =>
    obtain ⟨isOwner, isStored⟩ := isKnown
    constructor
    · intro later member isRun
      obtain ⟨run, runMem, sameId, sameTask, -⟩ := appended.runs later member
      rw [sameTask]
      exact isOwner run runMem (sameId.symm.trans isRun)
    · intro later member isTask
      obtain ⟨task, taskMem, sameId, prUrls⟩ := appended.tasks later member
      obtain ⟨distinct, isPrior, within⟩ := isStored task taskMem (sameId.symm.trans isTask)
      refine ⟨distinct, fun url isIn =>
        grows later member task taskMem sameId url (isPrior url isIn), fun longer => ?_⟩
      rw [prUrls, sameId.symm.trans isTask, keeps taskId ⟨rfl, longer⟩, Option.none_or]
      exact within longer

/-- What a call of a sweep or of an append keeps. -/
theorem runsInvariant_call {initial : Store} (leads : phase.Leads request answer later)
    (answers : commanderMachine.Answers request store answer moved) (isHeld : phase.Holds store)
    (invariant : RunsInvariant initial store) : RunsInvariant initial moved := by
  rcases moves_of_leads leads answers with rfl | ⟨event, urls, -, -, fits, -, appended⟩
  · exact invariant
  obtain ⟨folded, harvested, proper⟩ := invariant
  have harvests := fun later member =>
    @Appended.harvests store moved event urls _ appended proper _ isHeld.known fits later member
  refine ⟨appended.folded folded, ?_, ?_, ?_⟩
  · intro stored storedMem run runMem isRun task taskMem isOwner url isIn
    obtain ⟨oldRun, oldRunMem, sameRun, sameOwner, -⟩ := appended.runs run runMem
    obtain ⟨oldTask, oldTaskMem, sameTask, -, grows, adds⟩ := harvests task taskMem
    rw [sameRun] at isRun
    rw [sameOwner, sameTask] at isOwner
    rw [KeyedTable.mem_def, appended.events, mem_append, mem_singleton] at storedMem
    rcases storedMem with isOld | rfl
    · exact grows url (harvested stored isOld oldRun oldRunMem isRun oldTask oldTaskMem isOwner
        url isIn)
    · exact adds oldRun oldRunMem isRun isOwner url isIn
  · intro task taskMem
    obtain ⟨oldTask, oldTaskMem, sameTask, -⟩ := harvests task taskMem
    rw [sameTask]
    exact proper.named oldTask oldTaskMem
  · intro task taskMem
    obtain ⟨oldTask, oldTaskMem, -, distinct, -⟩ := harvests task taskMem
    exact distinct

theorem holds_after (leads : phase.Leads request answer later)
    (answers : commanderMachine.Answers request store answer moved) (isHeld : phase.Holds store)
    (proper : store.TasksProper) : later.Holds moved := by
  have moves := moves_of_leads leads answers
  cases leads with
  | clock =>
    rcases moves with rfl | ⟨event, urls, rfl, isPhase, -, -, -⟩
    · exact isHeld
    · exact absurd ‹_› not_false
  | @looks id run isIdle =>
    obtain ⟨isFound, rfl⟩ := answers_db answers
    refine ⟨isHeld.remaining, isHeld.missing, ?_⟩
    intro other member isRun
    have found : moved.runs.find? id = some run := (ok.inj isFound).symm
    obtain ⟨runMem, isId⟩ := find?_eq_some.mp found
    rw [eq_of_key_eq member runMem (isRun.trans isId.symm)]
  | @misses id isIdle =>
    obtain ⟨isFound, rfl⟩ := answers_db answers
    refine ⟨fun other member => isHeld.remaining other (mem_of_mem_filter member), ?_, isHeld.known⟩
    intro other member run runMem
    rcases mem_cons.mp member with rfl | member
    · exact KeyedTable.find?_eq_none.mp (ok.inj isFound).symm run runMem
    · exact isHeld.missing other member run runMem
  | @reads runId taskId stored prs isKnown =>
    obtain ⟨isFound, rfl⟩ := answers_db answers
    have isOwner := isHeld.known
    rw [isKnown] at isOwner
    refine ⟨isHeld.remaining, isHeld.missing, isOwner, ?_⟩
    intro task taskMem isTask
    have found : moved.tasks.find? taskId = some task := find?_eq_some.mpr ⟨taskMem, isTask⟩
    have isStored : stored = some task.prUrls := by
      have read := ok.inj isFound
      rw [read, found]
      rfl
    rw [isStored]
    exact ⟨proper.distinct task taskMem, fun url isIn => isIn, fun _ url isIn => isIn⟩
  | @appends event urls fits mayAppend =>
    have appended := appended_of_answers answers
    refine ⟨?_, ?_, trivial⟩
    · intro id member run runMem isRun
      apply appended.isOpen runMem
      · intro old oldMem isOld
        apply isHeld.remaining id _ old oldMem (isOld.trans isRun)
        simp only [RunPhase.appends] at member
        split at member
        · exact mem_of_mem_filter member
        · exact member
      · intro isEvent
        rw [← Bool.not_eq_true]
        intro settles
        simp only [RunPhase.appends, if_pos settles] at member
        have isOther := of_decide_eq_true (mem_filter.mp member).2
        exact isOther (isRun.symm.trans isEvent)
    · intro id member run runMem isRun
      obtain ⟨old, oldMem, sameId, -⟩ := appended.runs run runMem
      exact isHeld.missing id member old oldMem (sameId.symm.trans isRun)
  | @selects ids before found kept isSweep isDone isIdle fromFound =>
    obtain ⟨isFound, rfl⟩ := answers_db answers
    refine ⟨?_, isHeld.missing, isHeld.known⟩
    intro id member run runMem isRun
    have selected := fromFound id member
    rw [show found = moved.selectOpenRuns ids before from ok.inj isFound] at selected
    obtain ⟨other, otherMem, isOther⟩ := List.mem_map.mp selected
    rw [mem_insertionSort] at otherMem
    obtain ⟨otherMem, isOpen⟩ := mem_filter.mp otherMem
    rw [eq_of_key_eq runMem otherMem (isRun.trans isOther.symm)]
    simp only [Bool.and_eq_true] at isOpen
    exact isOpen.1.1
  | thrown =>
    exact ⟨forall_mem_nil _, forall_mem_nil _, trivial⟩

theorem holds_beside {bystander : RunPhase}
    {others : List (Operation × Prog commanderSignature Unit)}
    (mayCall : appendsApart.mayCall request store others) (leads : phase.Leads request answer later)
    (answers : commanderMachine.Answers request store answer moved) (isHeld : phase.Holds store)
    (proper : store.TasksProper) (member : thread ∈ others)
    (owned : RunPhase.Owns thread.1 bystander) (follows : runProtocol.Follows bystander thread.2)
    (stands : bystander.Holds store) : bystander.Holds moved := by
  rcases moves_of_leads leads answers with rfl | ⟨event, urls, rfl, -, fits, -, appended⟩
  · exact stands
  obtain ⟨notSwept, notMerged⟩ := mayCall
  refine ⟨?_, ?_, ?_⟩
  · intro id isIn run runMem isRun
    apply appended.isOpen runMem
    · exact fun old oldMem isOld => stands.remaining id isIn old oldMem (isOld.trans isRun)
    · intro isEvent
      rw [← Bool.not_eq_true]
      intro settles
      exact notSwept settles thread member
        (sweeps_of_remaining owned follows (isEvent ▸ isRun ▸ isIn))
  · intro id isIn run runMem isRun
    obtain ⟨old, oldMem, sameId, -⟩ := appended.runs run runMem
    exact stands.missing id isIn old oldMem (sameId.symm.trans isRun)
  · apply stands.known.appended appended
    · intro task taskMem old oldMem sameId url isIn
      obtain ⟨first, firstMem, isFirst, -, grows, -⟩ :=
        appended.harvests proper isHeld.known fits taskMem
      rw [eq_of_key_eq oldMem firstMem (sameId.symm.trans isFirst)] at isIn
      exact grows url isIn
    · intro taskId merges
      by_contra isSome
      obtain ⟨merged, isMerged⟩ := ne_none_iff_exists'.mp isSome
      obtain ⟨entry, isEntry, isSets⟩ := bind_eq_some_iff.mp isMerged
      obtain ⟨isUrls, isTask⟩ := filter_eq_some_iff.mp isEntry
      obtain rfl := of_decide_eq_true isTask
      exact notMerged entry.1 entry.2 isUrls (isSets ▸ rfl) thread member
        (mergesPrUrls_of_known follows merges)

/-- Appends and sweeps keep what is relied on, where they are kept apart. -/
theorem runs_guard (runtime : Runtime) (initial : Store) :
    runProtocol.Guards (commanderSystem runtime Operation.onRuns) appendsApart .first
      RunPhase.Owns (RunsInvariant initial) fun store phase => phase.Holds store where
  program op running startable := actionOf_follows startable
  possible := by
    intro request world answer moved answers
    cases request with
    | db statement =>
      cases statement with
      | selectOpenRuns ids before =>
        rw [(answers_db answers).1]
        apply List.Nodup.map_on
        · intro first firstMem second secondMem same
          rw [mem_insertionSort] at firstMem secondMem
          exact eq_of_key_eq (mem_of_mem_filter firstMem) (mem_of_mem_filter secondMem) same
        · apply (perm_insertionSort _ _).nodup_iff.mpr
          exact (List.Nodup.of_map _ world.runs.keysNodup).filter _
      | _ => exact trivial
    | _ => exact trivial
  ownsFirst op := ⟨rfl, fun _ => rfl⟩
  ownsLed := by
    intro op phase request answer after leads owned
    refine ⟨?_, ?_⟩
    · cases leads <;> exact owned.1
    · intro notSweep
      cases leads with
      | misses =>
        simp only [RunPhase.misses] at notSweep ⊢
        rw [owned.2 notSweep, filter_nil]
      | appends =>
        simp only [RunPhase.appends] at notSweep ⊢
        rw [owned.2 notSweep, filter_nil, ite_self]
      | selects kept isSweep =>
        rw [isSweep] at notSweep
        cases notSweep
      | thrown => rfl
      | _ => exact owned.2 notSweep
  starts op world invariant := ⟨forall_mem_nil _, forall_mem_nil _, trivial⟩
  own acts invariant := ⟨runsInvariant_call acts.leads acts.answers acts.isHeld invariant,
    holds_after acts.leads acts.answers acts.isHeld invariant.proper⟩
  other acts invariant member owned follows stands :=
    holds_beside acts.mayCall acts.leads acts.answers acts.isHeld invariant.proper member owned
      follows stands
  environment := by
    rintro world moved rfl invariant
    exact ⟨invariant, fun phase stands => stands⟩

end Guards

section Sweeps

def OnlyCloses (before after : Store) : Prop :=
  ∀ later ∈ after.runs, ∃ run ∈ before.runs, later.id = run.id ∧ later.createdAt = run.createdAt ∧
      (Store.isOpen later.status = true → Store.isOpen run.status = true)

def Store.Closed (store : Store) (runId : String) : Prop :=
  ∀ run ∈ store.runs, run.id = runId → Store.isOpen run.status = false

def anyWhere : Call → Store → Prop := fun _ _ => True

variable {first second third : Store} {json : JsonText}

theorem OnlyCloses.refl (store : Store) : OnlyCloses store store :=
  fun later member => ⟨later, member, rfl, rfl, id⟩

theorem OnlyCloses.trans (one : OnlyCloses first second) (two : OnlyCloses second third) :
    OnlyCloses first third := by
  intro later member
  obtain ⟨between, betweenMem, sameId, sameAt, opens⟩ := two later member
  obtain ⟨run, runMem, sameRun, sameCreated, opened⟩ := one between betweenMem
  exact ⟨run, runMem, sameId.trans sameRun, sameAt.trans sameCreated, fun isOpen =>
    opened (opens isOpen)⟩

theorem OnlyCloses.closed (closes : OnlyCloses first second) {runId : String}
    (closed : first.Closed runId) : second.Closed runId := by
  intro later member isRun
  obtain ⟨run, runMem, sameId, -, opens⟩ := closes later member
  rw [← Bool.not_eq_true]
  intro isOpen
  rw [closed run runMem (sameId.symm.trans isRun)] at opens
  cases opens isOpen

theorem Appended.onlyCloses {event : RunEventRow} {fold : Option RunFold}
    {urls : Option (String × TaskUrls)} (appended : Appended first event fold urls second)
    (closes : ∀ value, fold = some (.status value) → Store.isOpen value = false) :
    OnlyCloses first second ∧ (fold.any RunFold.settles = true → second.Closed event.runId) := by
  have status : ∀ later ∈ second.runs, ∃ run ∈ first.runs, later.id = run.id ∧
      later.createdAt = run.createdAt ∧
      (later.status = run.status ∨ Store.isOpen later.status = false) ∧
      (run.id = event.runId → fold.any RunFold.settles = true →
        Store.isOpen later.status = false) := by
    intro later member
    obtain ⟨run, runMem, sameId, -, sameAt, status, -⟩ := appended.runs later member
    refine ⟨run, runMem, sameId, sameAt, ?_, ?_⟩
    · rw [status]
      split
      · cases fold with
        | none => exact .inl rfl
        | some fold =>
          cases fold with
          | status value => exact .inr (closes value rfl)
          | exit code => exact .inl rfl
      · exact .inl rfl
    · intro isRun settles
      rw [status, if_pos isRun]
      cases fold with
      | none => cases settles
      | some fold =>
        cases fold with
        | status value => exact closes value rfl
        | exit code => cases settles
  constructor
  · intro later member
    obtain ⟨run, runMem, sameId, sameAt, same | closed, -⟩ := status later member
    · exact ⟨run, runMem, sameId, sameAt, fun isOpen => same ▸ isOpen⟩
    · refine ⟨run, runMem, sameId, sameAt, fun isOpen => ?_⟩
      rw [closed] at isOpen
      cases isOpen
  · intro settles later member isRun
    obtain ⟨run, runMem, sameId, -, -, closed⟩ := status later member
    exact closed (sameId.symm.trans isRun) settles

def Call.IsRead : Call → Prop
  | .db (.selectPrUrls _) => True
  | _ => False

theorem harvest_reads (taskId : Option String) (payload : Json) :
    Issues Call.IsRead (harvest json taskId payload) := by
  unfold harvest
  split
  · exact Keeps.pure
  · apply Keeps.bind
    · unfold mergedPrUrls
      split
      · exact Keeps.pure
      · apply Keeps.port_bind
        · exact trivial
        · exact fun _ _ => Keeps.pure
    · exact fun _ => Keeps.pure

theorem appendRunEvent_safe {runId : String} {input : RunEventInput}
    (closes : ∀ value, foldOf input.type input.payloadOf = some (.status value) →
      Store.isOpen value = false) :
    Safe commanderMachine anyWhere (appendRunEvent json runId input)
      (fun _ after => OnlyCloses first after ∧
        ((foldOf input.type input.payloadOf).any RunFold.settles = true → after.Closed runId))
      first := by
  apply safe_port_bind
  · exact trivial
  rintro (_ | run) after answers
  · obtain ⟨isFound, rfl⟩ := answers_db answers
    apply safe_pure
    refine ⟨.refl _, fun _ other member isRun => ?_⟩
    exact absurd isRun (KeyedTable.find?_eq_none.mp (ok.inj isFound).symm other member)
  obtain ⟨-, rfl⟩ := answers_db answers
  apply safe_port_bind
  · exact trivial
  rintro id after rfl
  have appends : ∀ (at' : String) (before : Store), Safe commanderMachine anyWhere (do
        let event : RunEventRow := ⟨id, runId, input.type, input.payloadOf, at'⟩
        let urls ← harvest json run.taskId event.payload
        query (.appendEvent event (foldOf event.type event.payload) urls)
        pure (some event) : CommanderM (Option RunEventRow))
      (fun _ after => OnlyCloses before after ∧
        ((foldOf input.type input.payloadOf).any RunFold.settles = true → after.Closed runId))
      before := by
    intro at' before
    apply safe_quiet_bind (harvest_reads run.taskId input.payloadOf)
    · intro request before answer after isRead answers
      cases request with
      | db statement =>
        cases statement with
        | selectPrUrls taskId => exact (answers_db answers).2
        | _ => exact isRead.elim
      | _ => exact isRead.elim
    · exact fun _ _ => trivial
    intro urls
    apply safe_port_bind
    · exact trivial
    rintro ⟨⟩ after answers
    apply safe_pure
    exact (appended_of_answers answers).onlyCloses closes
  split
  · exact safe_bind (safe_pure (appends _ _))
  · apply safe_port_bind
    · exact trivial
    rintro at' after rfl
    exact appends _ _

variable {toISOString : Int → String}

variable {line : String}

variable {id : String}

theorem failRun_safe : Safe commanderMachine anyWhere (failRun json toISOString line id)
      (fun _ after => OnlyCloses first after ∧ after.Closed id) first := by
  apply safe_port_bind
  · exact trivial
  rintro start after rfl
  apply safe_bind
  apply (appendRunEvent_safe fun _ isStatus => by cases isStatus).mono
  rintro - noticed ⟨isNoticed, -⟩
  apply safe_bind
  apply (appendRunEvent_safe fun _ isStatus => by cases isStatus).mono
  rintro - exited ⟨isExited, -⟩
  apply safe_bind
  apply (appendRunEvent_safe fun _ isStatus => by cases isStatus; rfl).mono
  rintro - failed ⟨isFailed, closed⟩
  exact safe_pure ⟨(isNoticed.trans isExited).trans isFailed, closed rfl⟩

/-- All selected runs that are not spared have ended. -/
theorem failRuns_safe {exceptIds ids : List String} :
    Safe commanderMachine anyWhere (failRuns json toISOString exceptIds line ids)
      (fun _ after => OnlyCloses first after ∧ ∀ id ∈ ids, id ∉ exceptIds → after.Closed id)
      first := by
  induction ids generalizing first with
  | nil => exact safe_pure ⟨.refl _, forall_mem_nil _⟩
  | cons id rest ih =>
    unfold failRuns
    split
    · rename_i excepted
      apply ih.mono
      rintro done after ⟨closes, closed⟩
      refine ⟨closes, fun other member notExcepted => ?_⟩
      rcases mem_cons.mp member with rfl | member
      · exact absurd excepted notExcepted
      · exact closed other member notExcepted
    · apply safe_bind
      apply failRun_safe.mono
      rintro - failed ⟨isFailed, isClosed⟩
      apply safe_bind
      apply ih.mono
      rintro done after ⟨closes, closed⟩
      refine safe_pure ⟨isFailed.trans closes, fun other member notExcepted => ?_⟩
      rcases mem_cons.mp member with rfl | member
      · exact closes.closed isClosed
      · exact closed other member notExcepted

theorem failRuns_spared {exceptIds ids : List String} (spared : ∀ id ∈ ids, id ∈ exceptIds) :
    failRuns json toISOString exceptIds line ids = pure [] := by
  induction ids with
  | nil => rfl
  | cons id rest ih =>
    unfold failRuns
    rw [if_pos (spared id mem_cons_self)]
    exact ih fun other member => spared other (mem_cons_of_mem id member)

variable {ids : Option (List String)} {before : Option String}

theorem Store.mem_selectOpenRuns : id ∈ first.selectOpenRuns ids before ↔ ∃ run ∈ first.runs, run.id = id ∧
      Store.isOpen run.status = true ∧ (ids.all fun ids => run.id ∈ ids) = true ∧
        (before.all fun before => run.createdAt < before) = true := by
  simp only [Store.selectOpenRuns, List.mem_map, mem_insertionSort, mem_filter, Bool.and_eq_true]
  constructor
  · rintro ⟨run, ⟨member, ⟨isOpen, isListed⟩, isBefore⟩, isId⟩
    exact ⟨run, member, isId, isOpen, isListed, isBefore⟩
  · rintro ⟨run, member, isId, isOpen, isListed, isBefore⟩
    exact ⟨run, ⟨member, ⟨isOpen, isListed⟩, isBefore⟩, isId⟩

theorem OnlyCloses.selected (closes : OnlyCloses first second)
    (selected : id ∈ second.selectOpenRuns ids before) :
    id ∈ first.selectOpenRuns ids before := by
  obtain ⟨later, member, isId, isOpen, isListed, isBefore⟩ := Store.mem_selectOpenRuns.mp selected
  obtain ⟨run, runMem, sameId, sameAt, opens⟩ := closes later member
  rw [sameId] at isId isListed
  rw [sameAt] at isBefore
  exact Store.mem_selectOpenRuns.mpr ⟨run, runMem, isId, opens isOpen, isListed, isBefore⟩

def Store.Remains (store after : Store) : Prop :=
  after = store

/-- A sweep leaves nothing to another one like it. -/
theorem reconcileOrphanRuns_again {runtime : Runtime} {opts : ReconcileOptions}
    {done : List String} {outcome : Option (Except CommanderError (List String))}
    (swept : Reaches commanderMachine
      (reconcileOrphanRuns runtime.json runtime.toISOString opts).run first (some (.ok done)) second)
    (again : Reaches commanderMachine
      (reconcileOrphanRuns runtime.json runtime.toISOString opts).run second outcome third) :
    third = second := by
  have sound : Sound commanderMachine (Preserves commanderMachine second.Remains) second.Remains :=
    sound_preserves
  by_cases isEmpty : opts.ids = some []
  · have safe : Safe commanderMachine (Preserves commanderMachine second.Remains)
        (reconcileOrphanRuns runtime.json runtime.toISOString opts) (fun _ _ => True) second := by
      unfold reconcileOrphanRuns
      rw [if_pos isEmpty]
      exact safe_pure trivial
    have unmoved : second.Remains third := safe.reaches sound rfl again
    exact unmoved
  have spared : ∀ id ∈ second.selectOpenRuns opts.ids (opts.before.filter fun at' => at' ≠ ""),
      id ∈ opts.exceptIds := by
    have safe : Safe commanderMachine anyWhere
        (reconcileOrphanRuns runtime.json runtime.toISOString opts)
        (fun _ after => ∀ id ∈ after.selectOpenRuns opts.ids
          (opts.before.filter fun at' => at' ≠ ""), id ∈ opts.exceptIds) first := by
      unfold reconcileOrphanRuns
      rw [if_neg isEmpty]
      apply safe_port_bind
      · exact trivial
      intro found after answers
      obtain ⟨isFound, rfl⟩ := answers_db answers
      apply failRuns_safe.mono
      rintro done after ⟨closes, closed⟩ id selected
      by_contra notExcepted
      have isListed : id ∈ (found : List String) := by
        rw [show found = _ from ok.inj isFound]
        exact closes.selected selected
      obtain ⟨run, member, isId, isOpen, -⟩ := Store.mem_selectOpenRuns.mp selected
      rw [closed id isListed notExcepted run member isId] at isOpen
      cases isOpen
    exact safe.returns swept
  have safe : Safe commanderMachine (Preserves commanderMachine second.Remains)
      (reconcileOrphanRuns runtime.json runtime.toISOString opts) (fun _ _ => True) second := by
    unfold reconcileOrphanRuns
    rw [if_neg isEmpty]
    apply safe_port_bind
    · rintro - answer after answers
      exact (answers_db answers).2
    · intro found after answers
      obtain ⟨isFound, rfl⟩ := answers_db answers
      rw [show found = _ from ok.inj isFound, failRuns_spared spared]
      exact safe_pure trivial
  have unmoved : second.Remains third := safe.reaches sound rfl again
  exact unmoved

end Sweeps

variable {json : JsonText}

variable (payloads : List (String × Json))

def Backfill.From (backfill : Backfill) : Prop :=
  ∀ url ∈ backfill.prUrls, ∃ payload, (backfill.taskId, payload) ∈ payloads ∧
    url ∈ eventPrUrls payload

theorem backfillEvent_from {payloads : List (String × Json)} {perTask : List Backfill}
    (isFrom : ∀ backfill ∈ perTask, backfill.From payloads) {entry : String × Json}
    (member : entry ∈ payloads) :
    ∀ backfill ∈ backfillEvent json perTask entry, backfill.From payloads := by
  intro backfill isIn
  simp only [backfillEvent] at isIn
  split at isIn
  · exact isFrom backfill isIn
  split at isIn
  · obtain ⟨old, oldMem, rfl⟩ := List.mem_map.mp isIn
    split
    · rename_i isTask
      intro url urlMem
      rcases mem_mergePrUrls.mp urlMem with isOld | isNew
      · exact isFrom old oldMem url isOld
      · refine ⟨entry.2, ?_, isNew⟩
        rw [show (old.add (extractEventUrls json entry.2) (eventPrUrls entry.2)).taskId = entry.1
          from isTask]
        exact member
    · exact isFrom old oldMem
  · rcases mem_append.mp isIn with isOld | isNew
    · exact isFrom backfill isOld
    · obtain rfl := mem_singleton.mp isNew
      intro url urlMem
      rcases mem_mergePrUrls.mp urlMem with isOld | isNew
      · exact absurd isOld not_mem_nil
      · exact ⟨entry.2, member, isNew⟩

theorem backfillOf_from : ∀ backfill ∈ backfillOf json payloads, backfill.From payloads := by
  suffices ∀ (entries : List (String × Json)) (perTask : List Backfill), entries ⊆ payloads →
      (∀ backfill ∈ perTask, backfill.From payloads) →
      ∀ backfill ∈ entries.foldl (backfillEvent json) perTask, backfill.From payloads from
    this payloads [] (List.Subset.refl payloads) (forall_mem_nil _)
  intro entries
  induction entries with
  | nil => exact fun perTask _ isFrom => isFrom
  | cons entry rest ih =>
    intro perTask within isFrom
    apply ih
    · exact fun other member => within (mem_cons_of_mem entry member)
    · exact backfillEvent_from isFrom (within (.head _))

/-- No task has a pull request that it did not have. -/
def AddsNoPrUrls (before after : Store) : Prop :=
  ∀ task ∈ before.tasks, ∀ later ∈ after.tasks, later.id = task.id →
    ∀ url ∈ later.prUrls.getD [], url ∈ task.prUrls.getD []

theorem addsNoPrUrls_refl (store : Store) : AddsNoPrUrls store store := by
  intro task member later laterMem sameId url isIn
  rw [eq_of_key_eq laterMem member sameId] at isIn
  exact isIn

theorem AddsNoPrUrls.update {before after : Store} (addsNone : AddsNoPrUrls before after)
    {taskId at' : String} {sets : TaskUrls}
    (hadAll : ∀ urls, sets.prUrls = some urls → ∀ task ∈ before.tasks, task.id = taskId →
      ∀ url ∈ urls, url ∈ task.prUrls.getD []) :
    AddsNoPrUrls before (after.updateTaskUrls taskId sets at') := by
  intro task member later laterMem sameId url isIn
  simp only [Store.updateTaskUrls, mem_update] at laterMem
  obtain ⟨between, betweenMem, rfl⟩ := laterMem
  by_cases isTask : between.id = taskId
  · rw [if_pos (decide_eq_true isTask)] at isIn sameId
    cases isSet : sets.prUrls with
    | none =>
      rw [isSet, Option.none_or] at isIn
      exact addsNone task member between betweenMem sameId url isIn
    | some urls =>
      rw [isSet, Option.some_or, getD_some] at isIn
      exact hadAll urls isSet task member (sameId.symm.trans isTask) url isIn
  · rw [if_neg (by simpa using isTask)] at isIn sameId
    exact addsNone task member between betweenMem sameId url isIn

theorem Store.Harvested.selected {store : Store} (harvested : store.Harvested)
    {taskId : String} {payload : Json} (selected : (taskId, payload) ∈ store.selectTaskPayloads)
    {task : TaskRow} (member : task ∈ store.tasks) (isTask : task.id = taskId) :
    ∀ url ∈ eventPrUrls payload, url ∈ task.prUrls.getD [] := by
  obtain ⟨event, eventMem, isPayload⟩ := mem_filterMap.mp selected
  rw [mem_insertionSort] at eventMem
  obtain ⟨run, isRun, isPair⟩ := bind_eq_some_iff.mp isPayload
  obtain ⟨runMem, isId⟩ := find?_eq_some.mp isRun
  obtain ⟨owner, isOwner, same⟩ := map_eq_some_iff.mp isPair
  cases same
  exact harvested event eventMem run runMem isId task member (isTask ▸ isOwner)

/-- The backfill adds no pull request to tasks that have all those of their events. -/
theorem backfillTaskUrls_addsNone {first second : Store} (harvested : first.Harvested)
    {outcome : Option (Except CommanderError Nat)}
    (reaches : Reaches commanderMachine (backfillTaskUrls json).run first outcome second) :
    AddsNoPrUrls first second := by
  have sound : Sound commanderMachine (Preserves commanderMachine (AddsNoPrUrls first))
      (AddsNoPrUrls first) := sound_preserves
  have updates : ∀ (perTask : List Backfill) (before : Store),
      (∀ backfill ∈ perTask, backfill.From first.selectTaskPayloads) →
      Safe commanderMachine (Preserves commanderMachine (AddsNoPrUrls first))
        (updateTasks perTask) (fun _ _ => True) before := by
    intro perTask
    induction perTask with
    | nil => exact fun before _ => safe_pure trivial
    | cons backfill rest ih =>
      intro before isFrom
      have later : ∀ before, Safe commanderMachine
          (Preserves commanderMachine (AddsNoPrUrls first)) (updateTasks rest)
          (fun _ _ => True) before :=
        fun before => ih before fun other member => isFrom other (.tail _ member)
      apply safe_bind
      unfold updateTaskUrls
      split
      · exact safe_pure (later before)
      · rename_i sets isSets
        apply safe_port_bind
        · rintro addsNone answer after rfl
          exact addsNone
        rintro at' after rfl
        apply safe_port
        · intro addsNone answer after answers
          rw [(answers_db answers).2]
          apply addsNone.update
          intro urls isUrls task member isTask url isIn
          have written : urls = backfill.prUrls := by
            rw [urlSets_prUrls isSets] at isUrls
            split at isUrls
            · cases isUrls
            · cases isUrls
              rfl
          obtain ⟨payload, selected, isUrl⟩ := isFrom backfill (.head _) url (written ▸ isIn)
          exact harvested.selected selected member isTask url isUrl
        · exact fun _ after _ => later after
  have safe : Safe commanderMachine (Preserves commanderMachine (AddsNoPrUrls first))
      (backfillTaskUrls json) (fun _ _ => True) first := by
    apply safe_port_bind
    · intro addsNone answer after answers
      rw [(answers_db answers).2]
      exact addsNone
    intro payloads after answers
    obtain ⟨isPayloads, rfl⟩ := answers_db answers
    apply safe_bind
    apply (updates _ _ _).mono
    · exact fun _ _ _ => safe_pure trivial
    · rw [show payloads = _ from ok.inj isPayloads]
      exact backfillOf_from _
  exact safe.reaches sound (addsNoPrUrls_refl first) reaches

/-- Where appends are kept apart, runs are the fold of their events, sweeps leave ended runs
alone, and tasks have every pull request of their events. -/
theorem runsFold_ofAppendsApart (runtime : Runtime) : RunsFold appendsApart runtime := by
  intro store proper folded harvested
  have initial : RunsInvariant store store := ⟨folded, harvested, proper⟩
  have reached : ∀ {config}, (commanderSystem runtime Operation.onRuns).ReachableUnder
      appendsApart store config → RunsInvariant store config.world :=
    fun run => ((runs_guard runtime store).reached initial run).1
  constructor
  · exact fun config run => (reached run).folded
  · intro opts watched event fold urls next run isAppend later member isRun
    have follows : runProtocol.FollowsTo (.first (.reconcileOrphanRuns opts))
        (reconcileOrphanRuns runtime.json runtime.toISOString opts).run
        fun _ after => after.Ended := by
      have sweep := @reconcileOrphanRuns_follows runtime.json runtime.toISOString opts
      unfold Follows at sweep
      exact sweep
    obtain ⟨-, -, phase, owned, isAt, stands⟩ :=
      (runs_guard runtime store).watched (fun _ _ ended => ended) initial follows run
    rw [isAppend] at isAt
    obtain ⟨after, leads, -⟩ := isAt (.ok ()) trivial
    cases leads with
    | clock isClock => exact isClock.elim
    | appends fits mayAppend =>
      rcases mayAppend owned.1 with isRemaining | isMissing
      · exact stands.remaining _ isRemaining later member isRun
      · exact absurd isRun (stands.missing _ isMissing later member)
  · exact fun opts config done after outcome final _ swept again =>
      reconcileOrphanRuns_again swept again
  · exact fun config run => (reached run).harvested
  · exact fun config outcome after run reaches =>
      backfillTaskUrls_addsNone (reached run).harvested reaches

def underWay : Store where
  features := .empty
  transitions := .empty
  tasks := .empty
  runs := KeyedTable.empty.insertOrIgnore ⟨"run", none, .running, none, "0", "0"⟩
  runEvents := .empty
  bundles := .empty

theorem underWay_folded : underWay.FoldsSince underWay :=
  fun run member => ⟨run, member, rfl, by rfl, by rfl⟩

def succeeds : RunEventInput :=
  ⟨.status, some (.obj [("status", .str "succeeded")]), some "1"⟩

def sweepAll : ReconcileOptions := ⟨none, none, [], none⟩

/-- The run ends after the sweep has selected it. -/
def endedLate : List (WatchMove commanderSignature) :=
  .own (numbered 1) :: List.replicate 3 (.other 0 (numbered 2)) ++
    List.replicate 3 (.own (numbered 3))

def appendsToEnded {α : Type} (watched : Watched commanderSignature Store Operation α) : Bool :=
  match watched.own with
  | .call (.db (.appendEvent event _ _)) _ =>
    watched.world.runs.rows.any fun run => run.id = event.runId && !Store.isOpen run.status
  | _ => false

/-- A run that has succeeded is failed by a sweep that selected it earlier. -/
theorem not_runsFold : ¬RunsFold anyStep plainRuntime := by
  intro claimed
  obtain ⟨watched, reached, isEnded⟩ :=
    watched_of_play (commanderReferee plainRuntime Operation.onRuns)
      [.start (.appendRunEvent "run" succeeds)] endedLate underWay (.reconcileOrphanRuns sweepAll)
      (reconcileOrphanRuns plainRuntime.json plainRuntime.toISOString sweepAll).run
      appendsToEnded (by simp) (by decide +kernel)
  have proper : underWay.TasksProper :=
    ⟨forall_mem_nil _, forall_mem_nil _⟩
  have kept := claimed underWay proper underWay_folded (forall_mem_nil _)
  unfold appendsToEnded at isEnded
  split at isEnded
  · rename_i event fold urls next isAppend
    obtain ⟨run, member, ended⟩ := any_eq_true.mp isEnded
    simp only [Bool.and_eq_true, decide_eq_true_eq, Bool.not_eq_true'] at ended
    have isOpen := kept.spared _ watched event fold urls next reached isAppend run member ended.1
    rw [ended.2] at isOpen
    cases isOpen
  · cases isEnded

end DubEcosystem.Commander
