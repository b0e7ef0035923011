import DubEcosystem.TaskServiceGuards

/-!
# task-service: what a request has written when it answers

A request that answers a version conflict has written nothing, and one that succeeds has
landed a write at the version it expected, unless it was a `PATCH` that gives no column.
A write at a version lands once only.
-/

namespace DubEcosystem.TaskService

open Interleaving Option

/-- A write on a task that landed, with the version it expected if it named one; a new
task or new edges; or the answer to the client. -/
inductive Note where
  | landed (id : String) (version : Option ℚ)
  | stored
  | answered (outcome : Outcome)

def noteOf : EntryOf statements Note
  | .update id _ version _, landed => if landed then [.landed id (some version)] else []
  | .bumpVersion id version _, landed =>
    if landed then [.landed id (some version)] else []
  | .archive id _, landed => if landed then [.landed id none] else []
  | .insert _, created => if created.isSome then [.stored] else []
  | .replaceEdges _ _ _, _ => [.stored]
  | .respond outcome, _ => [.answered outcome]
  | _, _ => []

def Request.expected : Request → Option (String × ℚ)
  | .createTask _ _ => none
  | .updateTask _ id body => (body.bind UpdateTaskRequest.version).map (Prod.mk id)
  | .deleteTask _ _ => none
  | .putEdges _ id body =>
    (body.bind ReplaceDependenciesRequest.version).map (Prod.mk id)

/-- A `PATCH` that gives no column. -/
def Request.isNoOp : Request → Bool
  | .updateTask _ _ body => body.any fun body => (patchOf body).isEmpty
  | _ => false

section Programs

open Prog

def NoConflict {α : Type} (outcome : Except (DubError String) α) : Prop :=
  ∀ thrown, outcome = .error thrown → thrown.code ≠ TASK_VERSION_CONFLICT

variable {α : Type}

theorem noConflict_ok (value : α) : NoConflict (.ok value : Except (DubError String) α) := by
  intro thrown isError
  cases isError

variable {thrown : DubError String}

theorem noConflict_error (other : thrown.code ≠ TASK_VERSION_CONFLICT) :
    NoConflict (.error thrown : Except (DubError String) α) := by
  rintro _ ⟨⟩
  exact other

def Fits (request : Request) (outcome : Outcome) (notes : List Note) : Prop :=
  (∀ answer, .answered answer ∉ notes) ∧ (notes = [] ∨ NoConflict outcome) ∧
    ∀ response, outcome = .ok response → request.isNoOp = false →
      ∀ id version, request.expected = some (id, version) → .landed id (some version) ∈ notes

theorem fits_error {request : Request} : Fits request (.error thrown) [] := by
  refine ⟨by simp, Or.inl rfl, ?_⟩
  intro response isOk
  cases isOk

def Checked (_verdict : Verdict) (notes : List Note) : Prop :=
  notes = []

theorem notes_checked_bind {check : Prog statements Verdict}
    {continuation : Verdict → Prog statements α}
    {post : α → List Note → Prop} (checked : check.Notes noteOf Checked [])
    (fails : ∀ thrown, (continuation (.error thrown)).Notes noteOf post [])
    (passes : (continuation (.ok ())).Notes noteOf post []) :
    (check >>= continuation).Notes noteOf post [] := by
  apply Notes.bind
  apply checked.mono
  rintro verdict notes rfl
  cases verdict with
  | error thrown => exact fails thrown
  | ok passed => exact passes

theorem checkAssignee_notes (given : Option String) :
    (checkAssignee given).Notes noteOf Checked [] := by
  unfold checkAssignee
  split
  · rfl
  · apply Notes.quiet fun _ => rfl
    intro found
    split <;> rfl

theorem checkParent_notes (team parentId : Option String) :
    (checkParent team parentId).Notes noteOf Checked [] := by
  unfold checkParent
  split
  · rfl
  · apply Notes.quiet fun _ => rfl
    intro found
    cases found with
    | none => rfl
    | some parent =>
      simp only []
      split <;> rfl

variable (id : String)

theorem checkChildren_notes (team : Option String) :
    (checkChildren id team).Notes noteOf Checked [] := by
  apply Notes.quiet fun _ => rfl
  intro childTeams
  split <;> rfl

theorem checkTeams_notes (current : Task String) (patch : TaskPatch) :
    (checkTeams id current patch).Notes noteOf Checked [] := by
  unfold checkTeams
  split
  · apply Notes.bind
    apply (checkParent_notes _ _).mono
    rintro verdict notes rfl
    cases verdict with
    | error thrown => rfl
    | ok passed =>
      simp only []
      split
      · exact checkChildren_notes _ _
      · rfl
  · rfl

theorem checkEvent_notes (eventId : Option String) :
    (checkEvent eventId).Notes noteOf Checked [] := by
  unfold checkEvent
  split
  · rfl
  · apply Notes.quiet fun _ => rfl
    intro found
    cases found with
    | none => rfl
    | some ref =>
      simp only []
      split <;> rfl

theorem checkBucket_notes (current : Task String) (dependsOnIds : List String) :
    (checkBucket id current dependsOnIds).Notes noteOf Checked [] := by
  apply Notes.quiet fun _ => rfl
  intro bucketTasks
  simp only []
  split
  · rfl
  · apply Notes.quiet fun _ => rfl
    intro edges
    rfl

variable {ctx : RequestContext}

theorem emitSpecs_notes {specs : List (EventSpec String)} {notes : List Note} :
    (emitSpecs ctx specs).Notes noteOf (fun _ later => later = notes) notes := by
  unfold emitSpecs
  split
  · rfl
  · intro answer
    exact List.append_nil notes

theorem createTask_notes (ctx : RequestContext) (body : Option CreateTaskRequest) :
    (createTask ctx body).Notes noteOf (Fits (.createTask ctx body)) [] := by
  unfold createTask
  cases body with
  | none => exact fits_error
  | some body =>
    simp only []
    split
    · exact fits_error
    refine notes_checked_bind (checkEvent_notes _) (fun _ => fits_error) ?_
    refine notes_checked_bind (checkAssignee_notes _) (fun _ => fits_error) ?_
    refine notes_checked_bind (checkParent_notes _ _) (fun _ => fits_error) ?_
    apply Notes.quiet fun _ => rfl
    intro now
    apply Notes.quiet fun _ => rfl
    intro id
    apply Notes.noting
    intro inserted
    cases inserted with
    | none => exact fits_error
    | some created =>
      apply Notes.bind
      apply emitSpecs_notes.mono
      rintro _ notes rfl
      refine ⟨by simp [noteOf], Or.inr (noConflict_ok _), ?_⟩
      intro response _ _ id version isExpected
      cases isExpected

theorem deleteTask_notes (ctx : RequestContext) (id : String) :
    (deleteTask ctx id).Notes noteOf (Fits (.deleteTask ctx id)) [] := by
  apply Notes.quiet fun _ => rfl
  intro found
  cases found with
  | none => exact fits_error
  | some current =>
    apply Notes.quiet fun _ => rfl
    intro now
    apply Notes.noting
    intro archived
    cases archived with
    | false => exact fits_error
    | true =>
      apply Notes.bind
      apply emitSpecs_notes.mono
      rintro _ notes rfl
      apply Notes.quiet fun _ => rfl
      intro occurredAt
      apply Notes.quiet fun _ => rfl
      intro _
      apply Notes.quiet fun _ => rfl
      intro task
      refine ⟨by simp [noteOf], Or.inr (noConflict_ok _), ?_⟩
      intro response _ _ id version isExpected
      cases isExpected

theorem writeTask_notes {id : String} {current : Task String}
    {body : UpdateTaskRequest} {version : ℚ} (isVersion : body.version = some version) :
    (writeTask ctx id current (patchOf body) version).Notes noteOf
      (Fits (.updateTask ctx id (some body))) [] := by
  unfold writeTask
  split
  · rename_i empty
    refine ⟨by simp, Or.inl rfl, ?_⟩
    intro response _ writes
    simp [Request.isNoOp, empty] at writes
  · apply Notes.quiet fun _ => rfl
    intro now
    apply Notes.noting
    intro landed
    cases landed with
    | false => exact fits_error
    | true =>
      apply Notes.quiet fun _ => rfl
      intro found
      cases found with
      | none =>
        refine ⟨by simp [noteOf], Or.inr (noConflict_error ?_), ?_⟩
        · show TASK_NOT_FOUND ≠ TASK_VERSION_CONFLICT
          decide
        · intro response isOk
          cases isOk
      | some updated =>
        apply Notes.bind
        apply emitSpecs_notes.mono
        rintro _ notes rfl
        refine ⟨by simp [noteOf], Or.inr (noConflict_ok _), ?_⟩
        intro response _ _ name expected isExpected
        simp only [Request.expected, bind_some, isVersion, map_some,
          Option.some.injEq, Prod.mk.injEq] at isExpected
        obtain ⟨rfl, rfl⟩ := isExpected
        simp [noteOf]

theorem updateTask_notes (ctx : RequestContext) (id : String) (body : Option UpdateTaskRequest) :
    (updateTask ctx id body).Notes noteOf (Fits (.updateTask ctx id body)) [] := by
  unfold updateTask
  split
  · exact fits_error
  rename_i version patch isParsed
  obtain ⟨given, rfl, isVersion, rfl⟩ : ∃ given, body = some given ∧
      given.version = some version ∧ patch = patchOf given := by
    unfold parseUpdateTask at isParsed
    split at isParsed
    · cases isParsed
    · rename_i given
      split at isParsed
      · cases isParsed
      · rename_i isVersion
        simp only [] at isParsed
        split at isParsed
        · cases isParsed
        · cases isParsed
          exact ⟨given, rfl, isVersion, rfl⟩
  apply Notes.quiet fun _ => rfl
  intro found
  cases found with
  | none => exact fits_error
  | some current =>
    simp only []
    split
    · exact fits_error
    split
    · exact fits_error
    refine notes_checked_bind (checkAssignee_notes _) (fun _ => fits_error) ?_
    refine notes_checked_bind (checkTeams_notes _ _ _) (fun _ => fits_error) ?_
    exact writeTask_notes isVersion

theorem putEdges_notes (ctx : RequestContext) (id : String)
    (body : Option (ReplaceDependenciesRequest String)) :
    (putEdges ctx id body).Notes noteOf (Fits (.putEdges ctx id body)) [] := by
  unfold putEdges
  split
  · exact fits_error
  rename_i version dependsOnIds isParsed
  have isExpected : (Request.putEdges ctx id body).expected = some (id, version) := by
    unfold parseReplaceDependencies at isParsed
    split at isParsed
    · cases isParsed
    · split at isParsed
      · cases isParsed
      · rename_i isVersion
        split at isParsed
        · cases isParsed
        · split at isParsed
          · cases isParsed
          · cases isParsed
            simp [Request.expected, isVersion]
  apply Notes.quiet fun _ => rfl
  intro found
  cases found with
  | none => exact fits_error
  | some current =>
    simp only []
    split
    · exact fits_error
    refine notes_checked_bind (checkBucket_notes _ _ _) (fun _ => fits_error) ?_
    apply Notes.quiet fun _ => rfl
    intro now
    apply Notes.bind
    apply Notes.quiet fun _ => rfl
    intro existing
    apply Notes.noting
    intro landed
    cases landed with
    | false => exact fits_error
    | true =>
      apply Notes.noting
      intro _
      apply Notes.bind
      apply emitSpecs_notes.mono
      rintro _ notes rfl
      apply Notes.quiet fun _ => rfl
      intro occurredAt
      apply Notes.quiet fun _ => rfl
      intro _
      refine ⟨by simp [noteOf], Or.inr (noConflict_ok _), ?_⟩
      intro response _ _ name expected other
      rw [isExpected] at other
      cases other
      simp [noteOf]

def Accounts (request : Request) (notes : List Note) : Prop :=
  ∃ wrote outcome, notes = wrote ++ [.answered outcome] ∧ Fits request outcome wrote

theorem program_notes (request : Request) :
    request.program.Notes noteOf (fun _ notes => Accounts request notes) [] := by
  have handled : request.handler.Notes noteOf (Fits request) [] := by
    cases request with
    | createTask ctx body => exact createTask_notes ctx body
    | updateTask ctx id body => exact updateTask_notes ctx id body
    | deleteTask ctx id => exact deleteTask_notes ctx id
    | putEdges ctx id body => exact putEdges_notes ctx id body
  apply Notes.bind
  apply handled.mono
  intro outcome notes fits answer
  exact ⟨notes, outcome, rfl, fits⟩

end Programs

variable {world : World String}

theorem World.update_unselected
    {selected : TaskRow String → Bool} {change : TaskRow String → TaskRow String}
    {keepsId : ∀ row, (change row).id = row.id}
    (none : world.tasks.selects selected = false) :
    { world with tasks := world.tasks.update selected change keepsId } = world := by
  have unselected : ∀ row ∈ world.tasks, selected row = false := by
    intro row member
    have missed := List.any_eq_false.mp none row member
    simpa using missed
  rw [KeyedTable.update_unselected unselected]

theorem World.insert_failed {input : InsertTaskInput}
    (failed : (world.insert input).1 = none) : (world.insert input).2 = world := by
  unfold World.insert at failed ⊢
  split
  · rfl
  · rename_i origin isOrigin
    simp only [isOrigin] at failed
    split
    · rfl
    · rename_i tasks inserted
      simp [inserted] at failed

theorem missed_of_no_note {landed : Bool} {note : Note}
    (nothing : (if landed then [note] else []) = []) : landed = false := by
  cases landed with
  | false => rfl
  | true => simp at nothing

variable {request : Statement} {before after : World String} {answer : request.Answer}

theorem unchanged_of_no_note (answers : statementMachine.Answers request before answer after)
    (nothing : noteOf request answer = []) : after = before := by
  cases request with
  | insert input =>
    obtain ⟨rfl, rfl⟩ := Prod.mk.inj answers
    apply World.insert_failed
    by_contra inserted
    obtain ⟨created, isCreated⟩ := ne_none_iff_exists'.mp inserted
    have noted : noteOf (.insert input) (before.insert input).1 = [.stored] := by
      rw [isCreated]
      rfl
    exact absurd (noted.symm.trans nothing) (by simp)
  | update id patch version now | archive id now | bumpVersion id version now =>
    cases answers
    exact World.update_unselected (missed_of_no_note nothing)
  | replaceEdges taskId dependsOnIds now => simp [noteOf] at nothing
  | getById id includeArchived | liveChildrenTeams parentId | listLiveTasksByEvent eventId
  | listDependenciesByEvent eventId | getDependsOn taskId =>
    exact (Prod.mk.inj answers).2.symm
  | nowIso | newId | getEvent eventId | userExists userId | emit requestId actorId specs
  | record input | respond outcome =>
    exact answers

end DubEcosystem.TaskService
