import DubEcosystem.TaskServiceConflicts

/-!
# task-service: the guards hold in every interleaving

Each event of a history changes tasks only within the rules, a request that answers a
version conflict has changed nothing, and no two requests that wrote had expected the
same version of one task.  A `PATCH` that gives no column also succeeds, without a
write.
-/

namespace DubEcosystem.TaskService

open Interleaving List KeyedTable

def Lands (notes : List Note) (before after : World String) : Prop :=
  ∀ id version, .landed id version ∈ notes → ∃ row ∈ before.tasks, ∃ later ∈ after.tasks,
      row.id = id ∧ later.id = id ∧ later.version = row.version + 1 ∧
        ∀ expected, version = some expected → (row.version : ℚ) = expected

def ChangesGuarded (principal : Principal) (before after : World String) : Prop :=
  ∀ row ∈ before.tasks, ∀ later ∈ after.tasks,
    later.id = row.id → later ≠ row → GuardedChange principal row later

section Steps

variable {principal : Principal} {request : Statement} {answer : request.Answer}
  {before after : World String} {selected : TaskRow String → Bool}
  {change : TaskRow String → TaskRow String}
  {keepsId : ∀ row, (change row).id = row.id}

/-- A write that raises the version of the rows `selected` finds under one id. -/
theorem lands_update {id : String} {version : Option ℚ}
    (raises : ∀ row, (change row).version = row.version + 1)
    (named : ∀ row, selected row = true →
      row.id = id ∧ ∀ expected, version = some expected → (row.version : ℚ) = expected) :
    Lands (if before.tasks.selects selected then [.landed id version] else []) before
      { before with tasks := before.tasks.update selected change keepsId } := by
  intro name expected noted
  split at noted
  · rename_i landed
    simp only [mem_singleton, Note.landed.injEq] at noted
    obtain ⟨rfl, rfl⟩ := noted
    obtain ⟨row, member, chosen⟩ := selects_eq_true.mp landed
    have present : (if selected row then change row else row) ∈
        before.tasks.update selected change keepsId :=
      mem_update.mpr ⟨row, member, rfl⟩
    simp only [chosen, if_true] at present
    obtain ⟨rowId, atVersion⟩ := named row chosen
    exact ⟨row, member, change row, present, rowId, (keepsId row).trans rowId, raises row,
      atVersion⟩
  · simp at noted

theorem lands_of_no_landing {notes : List Note}
    (none : ∀ id version, .landed id version ∉ notes) : Lands notes before after := by
  intro id version noted
  exact (none id version noted).elim

theorem lands_of_answers (answers : statementMachine.Answers request before answer after) :
    Lands (noteOf request answer) before after := by
  cases request with
  | update id patch version now | bumpVersion id version now =>
    cases answers
    apply lands_update fun row => rfl
    intro row chosen
    simp only [isAtVersion, decide_eq_true_eq] at chosen
    refine ⟨chosen.1, ?_⟩
    rintro expected ⟨⟩
    exact chosen.2.1
  | archive id now =>
    cases answers
    apply lands_update fun row => rfl
    intro row chosen
    simp only [decide_eq_true_eq] at chosen
    exact ⟨chosen.1, by simp⟩
  | insert input =>
    apply lands_of_no_landing
    intro id version
    simp only [noteOf]
    split <;> simp
  | _ =>
    apply lands_of_no_landing
    simp [noteOf]

theorem changesGuarded_update (guards : ∀ row ∈ before.tasks, selected row = true →
      GuardedChange principal row (change row)) :
    ChangesGuarded principal before
      { before with tasks := before.tasks.update selected change keepsId } := by
  intro row member later laterMem sameId changed
  obtain ⟨old, oldMem, rfl⟩ :=
    (@mem_update _ _ _ before.tasks selected change keepsId later).mp laterMem
  have oldId : old.id = row.id := by
    rw [← sameId]
    split
    · exact (keepsId old).symm
    · rfl
  obtain rfl := eq_of_key_eq oldMem member oldId
  by_cases chosen : selected old = true
  · simp only [chosen, if_true]
    exact guards old member chosen
  · simp [chosen] at changed

theorem changesGuarded_of_rows (rows : ∀ later ∈ after.tasks,
      later ∈ before.tasks ∨ ∀ row ∈ before.tasks, row.id ≠ later.id) :
    ChangesGuarded principal before after := by
  intro row member later laterMem sameId changed
  rcases rows later laterMem with old | new
  · exact (changed (eq_of_key_eq old member sameId)).elim
  · exact (new row member sameId.symm).elim

theorem changesGuarded_self : ChangesGuarded principal before before :=
  changesGuarded_of_rows fun _ member => Or.inl member

/-- A change of nothing but the version, the life and the time. -/
theorem guardedChange_of_same {row later : TaskRow String}
    (version : later.version = row.version + 1)
    (same : KeepsProtected row.toTask later.toTask) :
    GuardedChange principal row later where
  version := version
  status := fun changed => (changed same.status).elim
  readonly := fun _ _ => same

/-- A statement that leaves the store as it was, unless it is a write that lands. -/
theorem unchanged_of_no_write (answers : statementMachine.Answers request before answer after)
    (nothing : ∀ note ∈ noteOf request answer, ∃ outcome, note = .answered outcome) :
    after = before := by
  by_cases isNone : noteOf request answer = []
  · exact unchanged_of_no_note answers isNone
  · cases request with
    | respond outcome => exact answers
    | _ =>
      exfalso
      apply isNone
      apply eq_nil_iff_forall_not_mem.mpr
      intro note noted
      obtain ⟨outcome, rfl⟩ := nothing note noted
      simp [noteOf] at noted

theorem changesGuarded_of_answers (allowed : request.Allowed principal before)
    (answers : statementMachine.Answers request before answer after) :
    ChangesGuarded principal before after := by
  cases request with
  | update id patch version now =>
    cases answers
    exact changesGuarded_update allowed
  | archive id now | bumpVersion id version now =>
    cases answers
    apply changesGuarded_update
    intro row _ _
    exact guardedChange_of_same rfl ⟨rfl, rfl, rfl, rfl, rfl, rfl⟩
  | insert input =>
    obtain ⟨-, rfl⟩ := Prod.mk.inj answers
    apply changesGuarded_of_rows
    intro later member
    split at member
    · exact Or.inl member
    · split at member
      · exact Or.inl member
      · rename_i origin _ tasks inserted
        rcases (mem_insert? inserted).mp member with old | rfl
        · exact Or.inl old
        · exact Or.inr (insert?_eq_some inserted).2
  | replaceEdges taskId dependsOnIds now =>
    cases answers
    exact changesGuarded_of_rows fun _ member => Or.inl member
  | respond outcome =>
    obtain rfl : after = before := answers
    exact changesGuarded_self
  | _ =>
    obtain rfl := unchanged_of_no_note answers rfl
    exact changesGuarded_self

end Steps

def landingOf : Note → Option (String × ℚ)
  | .landed id (some version) => some (id, version)
  | _ => none

def versionsOf : EntryOf statements (String × ℚ) := fun request answer =>
  (noteOf request answer).filterMap landingOf

def Spent (world : World String) (expected : String × ℚ) : Prop :=
  ∃ row ∈ world.tasks, row.id = expected.1 ∧ expected.2 < row.version

variable {expected : String × ℚ}

theorem spent_of_evolves {before after : World String}
    (spent : Spent before expected) (evolves : before.Evolves after) :
    Spent after expected := by
  obtain ⟨row, member, named, behind⟩ := spent
  obtain ⟨later, laterMem, laterId, same⟩ := evolves row member
  refine ⟨later, laterMem, laterId.trans named, ?_⟩
  rcases same with rfl | grown
  · exact behind
  · have further : (row.version : ℚ) < later.version := by exact_mod_cast grown
    exact behind.trans further

theorem spent_of_landing {request : Statement} {answer : request.Answer}
    {before after : World String} (lands : Lands (noteOf request answer) before after)
    (landed : expected ∈ versionsOf request answer) :
    ¬Spent before expected ∧ Spent after expected := by
  obtain ⟨note, noted, isLanding⟩ := mem_filterMap.mp landed
  cases note with
  | landed id version =>
    cases version with
    | none => cases isLanding
    | some version =>
      cases isLanding
      obtain ⟨row, member, later, laterMem, rowId, laterId, raised, met⟩ :=
        lands id (some version) noted
      have atVersion := met version rfl
      constructor
      · rintro ⟨other, otherMem, otherId, behind⟩
        obtain rfl := eq_of_key_eq otherMem member (otherId.trans rowId.symm)
        rw [atVersion] at behind
        exact lt_irrefl _ behind
      · refine ⟨later, laterMem, laterId, ?_⟩
        rw [raised, ← atVersion]
        push_cast
        exact lt_add_one _
  | stored | answered outcome => cases isLanding

def Answered (thread : Thread statements (World String) Request) (outcome : Outcome) :
    Prop :=
  thread.rest = .done () ∧ ∃ event ∈ thread.past, event.request = .respond outcome

/-- In every run from any store, tasks change within the rules and by the writes that
land, a request that answers a
version conflict has changed nothing, and no two of the successful requests that count
carried the same expected version of a task. -/
def GuardsHold (counts : Request → Prop) : Prop :=
  ∀ start history, taskRequests.ReachableHistory anyCall start history →
    (∀ thread ∈ history.threads, ∀ event ∈ thread.past,
      ChangesGuarded thread.op.ctx.principal event.before event.after ∧
        Lands (noteOf event.request event.answer) event.before event.after) ∧
    (∀ thread ∈ history.threads, ∀ thrown, Answered thread (.error thrown) →
      thrown.code = TASK_VERSION_CONFLICT → ∀ event ∈ thread.past, event.after = event.before) ∧
    history.threads.Pairwise fun first second =>
      counts first.op → counts second.op →
      ∀ firstResponse secondResponse, Answered first (.ok firstResponse) →
        Answered second (.ok secondResponse) →
        ∀ expected, first.op.expected = some expected → second.op.expected ≠ some expected

section

variable {history : History statements (World String) Request} {start : World String}
  (reached : taskRequests.ReachableHistory anyCall start history)
  {thread : Thread statements (World String) Request} (member : thread ∈ history.threads)
include reached member

theorem fits_of_answered {outcome : Outcome} (answered : Answered thread outcome) :
    ∃ wrote, thread.notes noteOf = wrote ++ [.answered outcome] ∧ Fits thread.op outcome wrote := by
  obtain ⟨finished, event, past, isAnswer⟩ := answered
  have accounts := notes_of_reachable program_notes reached thread member
  rw [finished] at accounts
  obtain ⟨wrote, given, notes, fits⟩ := accounts
  have noted : Note.answered outcome ∈ thread.notes noteOf := by
    apply mem_notesOf.mpr
    refine ⟨event, past, ?_⟩
    obtain ⟨request, answer, before, after⟩ := event
    subst isAnswer
    exact mem_singleton_self _
  rw [notes] at noted
  rcases mem_append.mp noted with earlier | last
  · exact (fits.1 outcome earlier).elim
  · cases mem_singleton.mp last
    exact ⟨wrote, notes, fits⟩

theorem version_of_succeeded (writes : thread.op.isNoOp = false) {response : Response String}
    (answered : Answered thread (.ok response))
    (isExpected : thread.op.expected = some expected) : expected ∈ thread.notes versionsOf := by
  obtain ⟨wrote, notes, fits⟩ := fits_of_answered reached member answered
  have landed := fits.2.2 response rfl writes expected.1 expected.2 isExpected
  have noted : Note.landed expected.1 (some expected.2) ∈ thread.notes noteOf := by
    rw [notes]
    exact mem_append_left _ landed
  obtain ⟨event, past, inEvent⟩ := mem_notesOf.mp noted
  apply mem_notesOf.mpr
  exact ⟨event, past, mem_filterMap.mpr ⟨_, inEvent, rfl⟩⟩

end

/-- The guards hold, and every successful request but a `PATCH` without a column has
spent the version it expected. -/
theorem guardsHold_of_writing : GuardsHold fun request => request.isNoOp = false := by
  intro start history reached
  have sound := guardDiscipline.event_sound guardDiscipline_programsRespect trivial reached
  refine ⟨?_, ?_, ?_⟩
  · intro thread member event past
    obtain ⟨-, allowed, answers⟩ := sound thread member event past
    exact ⟨changesGuarded_of_answers allowed answers, lands_of_answers answers⟩
  · intro thread member thrown answered isConflict event past
    obtain ⟨wrote, notes, fits⟩ := fits_of_answered reached member answered
    have wroteNothing : wrote = [] := by
      rcases fits.2.1 with none | other
      · exact none
      · exact (other thrown rfl isConflict).elim
    obtain ⟨-, -, answers⟩ := sound thread member event past
    apply unchanged_of_no_write answers
    intro note noted
    have inNotes : note ∈ thread.notes noteOf := mem_notesOf.mpr ⟨event, past, noted⟩
    rw [notes, wroteNothing] at inNotes
    exact ⟨_, mem_singleton.mp inNotes⟩
  · have once := (@noted_once statements (World String) Request (String × ℚ) taskRequests
      anyCall versionsOf start history Spent
      (fun _ _ _ _ answers _ landed => spent_of_landing (lands_of_answers answers) landed)
      (fun _ _ _ _ _ answers spent => spent_of_evolves spent (evolves_of_answers answers))
      (fun _ _ _ moves => moves.elim) reached).2
    apply once.imp_of_mem
    intro first second firstMem secondMem apart firstWrites secondWrites _ _
      firstAnswered secondAnswered expected firstExpected secondExpected
    exact apart expected
      (version_of_succeeded reached firstMem firstWrites firstAnswered firstExpected)
      (version_of_succeeded reached secondMem secondWrites secondAnswered secondExpected)

def freshRow (id : String) (teamId : Option String) : TaskRow String where
  id := id
  eventId := none
  title := id
  description := none
  status := .todo
  priority := .medium
  assigneeId := none
  teamId := teamId
  parentTaskId := none
  wbs := none
  createdBy := "u"
  startAt := none
  dueAt := none
  origin := .internal
  version := 1
  archivedAt := none
  createdAt := "2026-06-01T00:00:00.000Z"
  updatedAt := "2026-06-01T00:00:00.000Z"
  dueSoonNotifiedAt := none

def oneTask : World String where
  tasks := ⟨[freshRow "A" none], by decide⟩
  dependencies := .empty
  processed := []

/-- A `PATCH` that gives only the version. -/
def versionOnly : Request :=
  .updateTask ⟨"r", .user "u", "o"⟩ "A" (some { version := some 1 })

def anAnswer : (request : Statement) → request.Answer
  | .nowIso => "2026-06-02T00:00:00.000Z"
  | .newId => "task_B"
  | .getEvent _ => none
  | .userExists _ => false
  | .getById _ _ => none
  | .liveChildrenTeams _ => []
  | .listLiveTasksByEvent _ => []
  | .listDependenciesByEvent _ => []
  | .getDependsOn _ => []
  | .insert _ => none
  | .update _ _ _ _ => false
  | .archive _ _ => false
  | .bumpVersion _ _ _ => false
  | .replaceEdges _ _ _ => ()
  | .emit _ _ _ => ()
  | .record _ => ()
  | .respond _ => ()

/-- Such a request answers the task as it is, and writes nothing. -/
theorem updateTask_versionOnly : updateTask ⟨"r", .user "u", "o"⟩ "A" (some { version := some 1 }) =
      Prog.call (S := statements) (.getById "A" false) fun found : Option (Task String) =>
        match found with
        | none => pure (.error (.notFound "A"))
        | some current =>
          if (1 : ℚ) ≠ current.version then pure (.error .versionConflict)
          else
            match checkPatch (.user "u") current (patchOf { version := some 1 }) with
            | .error thrown => pure (.error thrown)
            | .ok () => updateCurrent ⟨"r", .user "u", "o"⟩ "A" current
                (patchOf { version := some 1 }) 1 := by
  have parsed : parseUpdateTask (some { version := some 1 }) =
      .ok (1, patchOf { version := some 1 }) := rfl
  unfold updateTask
  rw [parsed]
  rfl

theorem alone_versionOnly {world : World String}
    (found : world.getById "A" false = some (freshRow "A" none).toTask) :
    alone taskRequests.toMachine anAnswer (taskRequests.program versionOnly) world [] = (world,
        [⟨.respond (.ok (.task (freshRow "A" none).toTask)), (), world, world⟩,
          ⟨.getById "A" false, some (freshRow "A" none).toTask, world, world⟩]) := by
  have atVersion : (1 : ℚ) = ((freshRow "A" none).toTask.version : ℚ) := by
    simp [freshRow]
  have checked : checkPatch (.user "u") (freshRow "A" none).toTask
      (patchOf { version := some 1 }) = .ok () := rfl
  have answer : updateCurrent ⟨"r", .user "u", "o"⟩ "A" (freshRow "A" none).toTask
      (patchOf { version := some 1 }) 1 = Prog.done (.ok (.task (freshRow "A" none).toTask)) := rfl
  simp only [taskRequests, versionOnly, Request.program, Request.handler,
    updateTask_versionOnly, Prog.call_bind, alone, statementMachine, Statement.exec, found,
    ← atVersion, ne_eq, not_true_eq_false, if_false, checked, answer, Prog.done_bind,
    Prog.perform, Option.getD]

/-- Two of them succeed with one version. -/
theorem not_guardsHold : ¬GuardsHold fun _ => True := by
  intro holds
  have nothing : taskRequests.ReachableHistory anyCall oneTask ⟨oneTask, []⟩ := .refl
  have twice := (nothing.alone anAnswer versionOnly trivial).alone anAnswer versionOnly trivial
  rw [alone_versionOnly rfl, alone_versionOnly rfl] at twice
  have apart := (holds oneTask _ twice).2.2
  rw [pairwise_cons] at apart
  have answered : ∀ past : List (Event statements (World String)),
      Answered ⟨versionOnly, ⟨.respond (.ok (.task (freshRow "A" none).toTask)), (),
        oneTask, oneTask⟩ :: past, .done ()⟩ (.ok (.task (freshRow "A" none).toTask)) :=
    fun past => ⟨rfl, _, .head _, rfl⟩
  exact apart.1 _ (.head _) trivial trivial _ _ (answered _) (answered _) ("A", 1) rfl rfl

end DubEcosystem.TaskService
