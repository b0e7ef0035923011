import Mathlib.Data.List.Sort
import DubEcosystem.CommanderPhases
import DubEcosystem.CommanderUrls
import DubEcosystem.KeyedTable

/-!
# commander-service: the commander tables and the statements on them

The rows of the commander tables, and what each statement or batch of `repo.ts` and
`bundles.ts` does to them.  A batch is one statement: it is carried out as a whole, or it
breaks a constraint, throws and changes nothing.
-/

namespace DubEcosystem.Commander

structure FeatureRow where
  id : String
  title : String
  phase : FeaturePhase
  ledgerRef : Option String
  createdAt : String
  updatedAt : String

inductive Actor where
  | user
  | system
  deriving DecidableEq

structure TransitionRow where
  id : String
  featureId : String
  fromPhase : FeaturePhase
  toPhase : FeaturePhase
  approvedByUser : Bool
  actor : Actor
  note : Option String
  createdAt : String

/-- `prUrls` is the stored list, or nothing where the column is null. -/
structure TaskRow where
  id : String
  demoUrl : Option String
  stagingUrl : Option String
  prUrl : Option String
  prUrls : Option (List String)
  updatedAt : String

inductive RunStatus where
  | pending
  | running
  | succeeded
  | failed
  deriving DecidableEq

def RunStatus.text : RunStatus → String
  | .pending => "pending"
  | .running => "running"
  | .succeeded => "succeeded"
  | .failed => "failed"

inductive RunEventType where
  | status
  | claude
  | stdout
  | stderr
  | exit
  | error
  deriving DecidableEq

structure RunRow where
  id : String
  taskId : Option String
  status : RunStatus
  exitCode : Option ℚ
  createdAt : String
  updatedAt : String

structure RunEventRow where
  id : String
  runId : String
  type : RunEventType
  payload : Json
  createdAt : String

inductive BundleStatus where
  | merging
  | deployed
  | failed
  deriving DecidableEq

inductive BundleSlot where
  | staging
  | staging2
  deriving DecidableEq

inductive MarkerState where
  | pending
  | pass
  | missing
  deriving DecidableEq

/-- `Record<string, MarkerState>`, with the entries in the order of their insertion. -/
abbrev Markers : Type := List (String × MarkerState)

structure BundleRow where
  id : String
  taskIds : List String
  status : BundleStatus
  slot : Option BundleSlot
  stagingUrl : Option String
  prUrl : Option String
  branch : String
  markers : Markers
  runId : Option String
  createdAt : String
  updatedAt : String

@[ext]
structure Store where
  features : KeyedTable FeatureRow.id
  transitions : KeyedTable TransitionRow.id
  tasks : KeyedTable TaskRow.id
  runs : KeyedTable RunRow.id
  runEvents : KeyedTable RunEventRow.id
  bundles : KeyedTable BundleRow.id

def Store.empty : Store :=
  ⟨.empty, .empty, .empty, .empty, .empty, .empty⟩

/-- What an event changes in the row of its run. -/
inductive RunFold where
  | status (status : RunStatus)
  | exit (code : Option ℚ)

/-- The columns of a task that are set. -/
structure TaskUrls where
  demoUrl : Option String
  stagingUrl : Option String
  prUrl : Option String
  prUrls : Option (List String)
  deriving DecidableEq

inductive Statement where
  | selectFeature (id : String)
  /-- The phase is updated and the audit row inserted. -/
  | advance (row : TransitionRow)
  | selectRun (id : String)
  | selectPrUrls (taskId : String)
  /-- The event is inserted, and the row of its run and of its task updated. -/
  | appendEvent (event : RunEventRow) (fold : Option RunFold) (urls : Option (String × TaskUrls))
  | selectOpenRuns (ids : Option (List String)) (before : Option String)
  | selectTaskPayloads
  | updateTaskUrls (taskId : String) (urls : TaskUrls) (at' : String)
  | selectTaskIds (ids : List String)
  | selectBundles
  | selectBundle (id : String)
  | selectBundleOfRun (runId : String)
  | insertBundle (row : BundleRow)
  /-- All columns but the task ids and those set at creation. -/
  | updateBundle (row : BundleRow)
  | updateBundleTasks (id : String) (taskIds : List String) (markers : Markers) (at' : String)
  | deleteBundle (id : String)

abbrev Statement.Result : Statement → Type
  | .selectFeature _ => Option FeatureRow
  | .selectRun _ => Option RunRow
  | .selectPrUrls _ => Option (Option (List String))
  | .selectOpenRuns _ _ => List String
  | .selectTaskPayloads => List (String × Json)
  | .selectTaskIds _ => List String
  | .selectBundles => List BundleRow
  | .selectBundle _ => Option BundleRow
  | .selectBundleOfRun _ => Option String
  | .deleteBundle _ => Bool
  | _ => Unit

namespace Store

variable (store : Store)

def foreignKey : String := "FOREIGN KEY constraint failed"

def uniqueId : String := "UNIQUE constraint failed"

def advance (row : TransitionRow) : Except String Unit × Store :=
  if store.features.selects fun feature => feature.id = row.featureId then
    match store.transitions.insert? row with
    | none => (.error uniqueId, store)
    | some transitions =>
      (.ok (),
        { store with
          transitions
          features := store.features.update (fun feature => feature.id = row.featureId)
            (fun feature => { feature with phase := row.toPhase, updatedAt := row.createdAt })
            fun _ => rfl })
  else (.error foreignKey, store)

def folded (fold : RunFold) (at' : String) (run : RunRow) : RunRow :=
  match fold with
  | .status status => { run with status, updatedAt := at' }
  | .exit code => { run with exitCode := code, updatedAt := at' }

def updateRun (runId : String) (fold : Option RunFold) (at' : String) : Store :=
  match fold with
  | none => store
  | some fold =>
    { store with
      runs := store.runs.update (fun run => run.id = runId) (folded fold at') fun run => by
        cases fold <;> rfl }

def updateTaskUrls (taskId : String) (urls : TaskUrls) (at' : String) : Store :=
  { store with
    tasks := store.tasks.update (fun task => task.id = taskId) (fun task =>
        { task with
          demoUrl := urls.demoUrl.or task.demoUrl
          stagingUrl := urls.stagingUrl.or task.stagingUrl
          prUrl := urls.prUrl.or task.prUrl
          prUrls := urls.prUrls.or task.prUrls
          updatedAt := at' })
      fun _ => rfl }

def appendEvent (event : RunEventRow) (fold : Option RunFold)
    (urls : Option (String × TaskUrls)) : Except String Unit × Store :=
  if store.runs.selects fun run => run.id = event.runId then
    match store.runEvents.insert? event with
    | none => (.error uniqueId, store)
    | some runEvents =>
      let appended := ({ store with runEvents } : Store).updateRun event.runId fold event.createdAt
      (.ok (), match urls with
        | none => appended
        | some (taskId, urls) => appended.updateTaskUrls taskId urls event.createdAt)
  else (.error foreignKey, store)

def isOpen (status : RunStatus) : Bool :=
  status = .pending || status = .running

def selectOpenRuns (ids : Option (List String)) (before : Option String) : List String :=
  ((store.runs.rows.filter fun run : RunRow =>
    isOpen run.status && (ids.all fun ids => run.id ∈ ids) &&
      before.all fun before => run.createdAt < before).insertionSort
    fun first second : RunRow => first.createdAt ≤ second.createdAt).map RunRow.id

/-- The payloads of the events of runs that belong to a task, in the order of the events. -/
def selectTaskPayloads : List (String × Json) :=
  (store.runEvents.rows.insertionSort fun first second : RunEventRow =>
    first.createdAt < second.createdAt ∨
      (first.createdAt = second.createdAt ∧ first.id ≤ second.id)).filterMap fun event =>
    (store.runs.find? event.runId).bind fun run =>
      run.taskId.map fun taskId => (taskId, event.payload)

def insertBundle (row : BundleRow) : Except String Unit × Store :=
  match store.bundles.insert? row with
  | none => (.error uniqueId, store)
  | some bundles => (.ok (), { store with bundles })

def updateBundle (row : BundleRow) : Store :=
  { store with
    bundles := store.bundles.update (fun bundle => bundle.id = row.id) (fun bundle =>
        { bundle with
          status := row.status, slot := row.slot, stagingUrl := row.stagingUrl
          prUrl := row.prUrl, markers := row.markers, runId := row.runId
          updatedAt := row.updatedAt })
      fun _ => rfl }

def updateBundleTasks (id : String) (taskIds : List String) (markers : Markers) (at' : String) :
    Store :=
  { store with
    bundles := store.bundles.update (fun bundle => bundle.id = id)
      (fun bundle => { bundle with taskIds, markers, updatedAt := at' })
      fun _ => rfl }

def deleteBundle (id : String) : Bool × Store :=
  (store.bundles.selects fun bundle => bundle.id = id,
    { store with bundles := store.bundles.deleteWhere fun bundle => bundle.id = id })

/-- What the statement answers, and what it leaves. -/
def exec : (statement : Statement) → Except String statement.Result × Store
  | .selectFeature id => (.ok (store.features.find? id), store)
  | .advance row => store.advance row
  | .selectRun id => (.ok (store.runs.find? id), store)
  | .selectPrUrls taskId => (.ok ((store.tasks.find? taskId).map TaskRow.prUrls), store)
  | .appendEvent event fold urls => store.appendEvent event fold urls
  | .selectOpenRuns ids before => (.ok (store.selectOpenRuns ids before), store)
  | .selectTaskPayloads => (.ok store.selectTaskPayloads, store)
  | .updateTaskUrls taskId urls at' => (.ok (), store.updateTaskUrls taskId urls at')
  | .selectTaskIds ids =>
    (.ok ((store.tasks.rows.filter fun task => task.id ∈ ids).map TaskRow.id), store)
  | .selectBundles =>
    (.ok (store.bundles.rows.insertionSort fun first second : BundleRow =>
      second.createdAt ≤ first.createdAt), store)
  | .selectBundle id => (.ok (store.bundles.find? id), store)
  | .selectBundleOfRun runId =>
    (.ok ((store.bundles.rows.find? fun bundle => bundle.runId = some runId).map BundleRow.id),
      store)
  | .insertBundle row => store.insertBundle row
  | .updateBundle row => (.ok (), store.updateBundle row)
  | .updateBundleTasks id taskIds markers at' =>
    (.ok (), store.updateBundleTasks id taskIds markers at')
  | .deleteBundle id =>
    let (changed, after) := store.deleteBundle id
    (.ok changed, after)

end Store

end DubEcosystem.Commander
