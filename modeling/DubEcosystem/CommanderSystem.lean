import DubEcosystem.CommanderRepo
import DubEcosystem.InterleavingFootprints
import DubEcosystem.InterleavingProtocols
import DubEcosystem.InterleavingSchedule

/-!
# commander-service: its operations, side by side

Any number of operations at once, over one database.  The clock and the ids answer as they
like.
-/

namespace DubEcosystem.Commander

open Interleaving PortPrograms

inductive Operation where
  | transitionFeature (featureId target : String) (approvedByUser : Bool) (note : Option String)
  | appendRunEvent (runId : String) (input : RunEventInput)
  | reconcileOrphanRuns (opts : ReconcileOptions)
  | backfillTaskUrls
  | createBundle (taskIds : List String)
  | updateBundle (id : String) (patch : BundlePatch)
  | removeBundleTask (id taskId : String)
  | deleteBundle (id : String)
  | applyBundleRunEvent (runId : String) (type : RunEventType) (payload : Json)

def Call.IsClock : Call → Prop
  | .db _ => False
  | _ => True

/-- The language and the clock that the operations run on. -/
structure Runtime where
  json : JsonText
  toISOString : Int → String

/-- What is done, without what is returned. -/
def silently {α : Type} (action : CommanderM α) : CommanderM Unit := do
  let _ ← action
  pure ()

variable (runtime : Runtime)

def actionOf : Operation → CommanderM Unit
  | .transitionFeature featureId target approvedByUser note =>
    silently (transitionFeature featureId target approvedByUser note)
  | .appendRunEvent runId input => silently (appendRunEvent runtime.json runId input)
  | .reconcileOrphanRuns opts =>
    silently (reconcileOrphanRuns runtime.json runtime.toISOString opts)
  | .backfillTaskUrls => silently (backfillTaskUrls runtime.json)
  | .createBundle taskIds => silently (createBundle taskIds)
  | .updateBundle id patch => silently (updateBundle id patch)
  | .removeBundleTask id taskId => silently (removeBundleTask id taskId)
  | .deleteBundle id => silently (deleteBundle id)
  | .applyBundleRunEvent runId type payload =>
    silently (applyBundleRunEvent runtime.json runId type payload)

def commanderMachine : Machine commanderSignature Store where
  exec
    | .db statement, store =>
      let (answer, after) := store.exec statement
      some (answer.mapError .failed, after)
    | _, _ => none
  observe _ _ store := store

/-- The operations that may `run`, any number of them at once. -/
def commanderSystem (run : Operation → Bool) : System commanderSignature Store Operation where
  toMachine := commanderMachine
  program op := (actionOf runtime op).run >>= fun _ => pure ()
  startable _ op := run op
  environment before after := before = after

def commanderReferee (run : Operation → Bool) : Referee (commanderSystem runtime run) anyCall where
  mayCall _ _ := true
  mayStart _ op := run op
  allowed_of_mayCall _ := trivial
  startable_of_mayStart mayRun := mayRun

/-- The clock and the ids, from a number that is given with each call. -/
def numbered (n : Nat) : (request : Call) → commanderSignature.Answer request
  | .db _ => .error (.failed "")
  | .nowIso => .ok (Nat.repr n)
  | .dateNow => .ok n
  | .newId _ => .ok (Nat.repr n)

/-- Answers with which an operation goes on. -/
def calmly : (request : Call) → commanderSignature.Answer request
  | .db (.selectFeature _) => .ok none
  | .db (.advance _) => .ok ()
  | .db (.selectRun _) => .ok (some ⟨"", none, .pending, none, "", ""⟩)
  | .db (.selectPrUrls _) => .ok none
  | .db (.appendEvent _ _ _) => .ok ()
  | .db (.selectOpenRuns _ _) => .ok ([] : List String)
  | .db .selectTaskPayloads => .ok ([] : List (String × Json))
  | .db (.updateTaskUrls _ _ _) => .ok ()
  | .db (.selectTaskIds _) => .ok ([] : List String)
  | .db .selectBundles => .ok ([] : List BundleRow)
  | .db (.selectBundle _) => .ok none
  | .db (.selectBundleOfRun _) => .ok none
  | .db (.insertBundle _) => .ok ()
  | .db (.updateBundle _) => .ok ()
  | .db (.updateBundleTasks _ _ _ _) => .ok ()
  | .db (.deleteBundle _) => .ok false
  | .nowIso => .ok ""
  | .dateNow => .ok (0 : Int)
  | .newId _ => .ok ""

/-- A runtime that parses nothing. -/
def plainRuntime : Runtime := ⟨⟨fun _ => none, fun _ => ""⟩, fun time => toString time⟩

variable {before after : Store}

theorem answers_db {statement : Statement} {answer : Except CommanderError statement.Result}
    (answers : commanderMachine.Answers (.db statement) before answer after) :
    answer = (before.exec statement).1.mapError .failed ∧ after = (before.exec statement).2 := by
  obtain ⟨isAnswer, isAfter⟩ := Prod.mk.inj answers
  exact ⟨isAnswer.symm, isAfter.symm⟩

theorem store_of_answers {request : Call} {answer : Except CommanderError (Call.Result request)}
    (answers : commanderMachine.Answers request before answer after)
    (notDb : ∀ statement, request ≠ .db statement) : after = before := by
  cases request with
  | db statement => exact absurd rfl (notDb statement)
  | nowIso | dateNow | newId kind => exact answers

theorem store_of_error {request : Call} {error : CommanderError}
    (answers : commanderMachine.Answers request before (.error error) after) :
    after = before := by
  cases request with
  | db statement =>
    obtain ⟨isError, rfl⟩ := answers_db answers
    cases statement with
    | advance row =>
      revert isError
      simp only [Store.exec, Store.advance]
      split
      · split
        · exact fun _ => rfl
        · intro isOk
          cases isOk
      · exact fun _ => rfl
    | appendEvent event fold urls =>
      revert isError
      simp only [Store.exec, Store.appendEvent]
      split
      · split
        · exact fun _ => rfl
        · intro isOk
          cases isOk
      · exact fun _ => rfl
    | insertBundle row =>
      revert isError
      simp only [Store.exec, Store.insertBundle]
      split
      · exact fun _ => rfl
      · intro isOk
        cases isOk
    | _ => cases isError
  | _ => exact answers

/-- Whatever its calls are answered, the action issues only `permitted` ones. -/
abbrev Issues {α : Type} (permitted : Call → Prop) (action : CommanderM α) : Prop :=
  Keeps (P := commanderPorts) (fun _ _ => True) permitted action

variable {permitted : Call → Prop}

theorem issues_silently {α : Type} {action : CommanderM α}
    (issues : Issues permitted action) : Issues permitted (silently action) :=
  Keeps.bind issues fun _ => Keeps.pure

theorem silently_follows {α Phase : Type} {protocol : Protocol commanderSignature Phase}
    {phase : Phase} {action : CommanderM α}
    (follows : Follows protocol phase action fun _ after => protocol.final after) :
    protocol.Follows phase ((silently action).run >>= fun _ => pure ()) := by
  have quiet : Follows protocol phase (silently action) fun _ after => protocol.final after := by
    apply follows_bind
    apply follows.mono
    rintro (thrown | value) after ended
    · exact ended
    · exact follows_pure ended
  unfold Follows at quiet
  exact Protocol.followsTo_bind quiet

theorem commanderSystem_obeys {runtime : Runtime} {run : Operation → Bool}
    (issues : ∀ op, run op = true → Issues permitted (actionOf runtime op)) :
    (commanderSystem runtime run).Obeys permitted :=
  fun op _ startable => (issues op startable).issues _ fun _ => trivial

end DubEcosystem.Commander
