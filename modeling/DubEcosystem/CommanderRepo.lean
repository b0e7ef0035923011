import DubEcosystem.CommanderStore
import DubEcosystem.PortPrograms

/-!
# commander-service: the operations

The operations of `repo.ts` and `bundles.ts` as the statements that they issue.
-/

namespace DubEcosystem.Commander

open IdentityRoster (isSpace trim)
open Interleaving PortPrograms

inductive Call where
  | db (statement : Statement)
  | nowIso
  | dateNow
  | newId (kind : String)

abbrev Call.Result : Call → Type
  | .db statement => statement.Result
  | .nowIso => String
  | .dateNow => Int
  | .newId _ => String

inductive CommanderError where
  | failed (message : String)

abbrev commanderPorts : Ports where
  Call := Call
  Result := Call.Result

abbrev commanderSignature : Signature := commanderPorts.signature CommanderError

abbrev CommanderM (α : Type) := Action commanderPorts CommanderError α

abbrev ask (request : Call) : CommanderM (Call.Result request) :=
  port (P := commanderPorts) request

abbrev query (statement : Statement) : CommanderM statement.Result :=
  ask (.db statement)

inductive TransitionOutcome where
  | ok (feature : FeatureRow) (transition : TransitionRow)
  | notFound
  | invalidPhase
  | refused (error : PhaseTransitionError)

/-- The gate is applied to the phase that was read; the phase and its audit row are then
written together. -/
def transitionFeature (featureId target : String) (approvedByUser : Bool)
    (note : Option String) : CommanderM TransitionOutcome := do
  let found : Option FeatureRow ← query (.selectFeature featureId)
  match found with
  | none => pure .notFound
  | some feature =>
    match isFeaturePhase target with
    | none => pure .invalidPhase
    | some target =>
      match transition feature.phase target approvedByUser with
      | .error error => pure (.refused error)
      | .ok _ => do
        let actor := if (findTransition feature.phase target).any
          fun spec => spec.requiresApproval then Actor.user else .system
        let at' : String ← ask .nowIso
        let id : String ← ask (.newId "ptx")
        let row : TransitionRow :=
          { id, featureId, fromPhase := feature.phase, toPhase := target, approvedByUser
            actor, note, createdAt := at' }
        query (.advance row)
        pure (.ok { feature with phase := target, updatedAt := at' } row)

def isRunStatus (text : String) : Option RunStatus :=
  [RunStatus.pending, .running, .succeeded, .failed].find? fun status => status.text = text

/-- What an event changes in the row of its run, when it is a valid one. -/
def foldOf (type : RunEventType) (payload : Json) : Option RunFold :=
  match type with
  | .status =>
    (((payload.field "status").bind Json.text?).bind isRunStatus).map RunFold.status
  | .exit =>
    match payload.field "code" with
    | some (.num code) => some (.exit (some code))
    | some .null => some (.exit none)
    | _ => none
  | _ => none

/-- The URLs of an event, with the pull requests that are appended to the stored ones. -/
def urlSets (found : ExtractedUrls) (prUrls : Option (List String)) : Option TaskUrls :=
  let urls : TaskUrls :=
    ⟨found.demoUrl.filter fun url => url ≠ "", found.stagingUrl.filter fun url => url ≠ "",
      found.prUrl.filter fun url => url ≠ "", prUrls⟩
  if urls = ⟨none, none, none, none⟩ then none else some urls

/-- The pull requests of the task after this event, when there is a new one. -/
def mergedPrUrls (taskId : String) (prs : List String) : CommanderM (Option (List String)) :=
  if prs = [] then pure none
  else do
    let stored : Option (Option (List String)) ← query (.selectPrUrls taskId)
    let prior := (stored.bind id).getD []
    let merged := mergePrUrls prior prs
    pure (if prior.length < merged.length then some merged else none)

structure RunEventInput where
  type : RunEventType
  payload : Option Json
  at' : Option String

/-- `input.payload ?? {}`. -/
def RunEventInput.payloadOf (input : RunEventInput) : Json :=
  match input.payload with
  | none => .obj []
  | some .null => .obj []
  | some payload => payload

variable (json : JsonText)

def harvest (taskId : Option String) (payload : Json) : CommanderM (Option (String × TaskUrls)) :=
  match taskId.filter fun id => id ≠ "" with
  | none => pure none
  | some taskId => do
    let prUrls ← mergedPrUrls taskId (eventPrUrls payload)
    pure ((urlSets (extractEventUrls json payload) prUrls).map fun urls => (taskId, urls))

def appendRunEvent (runId : String) (input : RunEventInput) :
    CommanderM (Option RunEventRow) := do
  let run : Option RunRow ← query (.selectRun runId)
  match run with
  | none => pure none
  | some run => do
    let id : String ← ask (.newId "rev")
    let at' : String ← match input.at' with
      | some at' => pure at'
      | none => ask .nowIso
    let event : RunEventRow := ⟨id, runId, input.type, input.payloadOf, at'⟩
    let urls ← harvest json run.taskId event.payload
    query (.appendEvent event (foldOf event.type event.payload) urls)
    pure (some event)

def ORPHAN_RUN_NOTICE : String :=
  "[commander] commanderの再起動でこの実行は中断されました。もう一度送ってください。"

structure ReconcileOptions where
  ids : Option (List String)
  before : Option String
  exceptIds : List String
  line : Option String

/-- A notice, `exit` without a code and `status: failed`, with increasing timestamps. -/
def failRun (toISOString : Int → String) (line id : String) :
    CommanderM Unit := do
  let start : Int ← ask .dateNow
  let _ ← appendRunEvent json id
    ⟨.stderr, some (.obj [("line", .str line)]), some (toISOString start)⟩
  let _ ← appendRunEvent json id
    ⟨.exit, some (.obj [("code", .null)]), some (toISOString (start + 1))⟩
  let _ ← appendRunEvent json id
    ⟨.status, some (.obj [("status", .str "failed")]), some (toISOString (start + 2))⟩
  pure ()

def failRuns (json : JsonText) (toISOString : Int → String) (exceptIds : List String)
    (line : String) : List String → CommanderM (List String)
  | [] => pure []
  | id :: rest =>
    if id ∈ exceptIds then failRuns json toISOString exceptIds line rest
    else do
      failRun json toISOString line id
      let done ← failRuns json toISOString exceptIds line rest
      pure (id :: done)

def reconcileOrphanRuns (toISOString : Int → String)
    (opts : ReconcileOptions) : CommanderM (List String) :=
  if opts.ids = some [] then pure []
  else do
    let found : List String ← query
      (.selectOpenRuns opts.ids (opts.before.filter fun before => before ≠ ""))
    failRuns json toISOString opts.exceptIds (opts.line.getD ORPHAN_RUN_NOTICE) found

/-- What is found in the events of a task so far. -/
structure Backfill where
  taskId : String
  urls : ExtractedUrls
  prUrls : List String

def Backfill.add (backfill : Backfill) (found : ExtractedUrls) (prs : List String) : Backfill :=
  { backfill with
    urls := mergeUrls backfill.urls found, prUrls := mergePrUrls backfill.prUrls prs }

/-- One event more; `perTask` is in the order of insertion. -/
def backfillEvent (perTask : List Backfill) (entry : String × Json) :
    List Backfill :=
  let found := extractEventUrls json entry.2
  let prs := eventPrUrls entry.2
  if urlSets found none = none ∧ prs = [] then perTask
  else if perTask.any fun backfill => backfill.taskId = entry.1 then
    perTask.map fun backfill =>
      if backfill.taskId = entry.1 then backfill.add found prs else backfill
  else perTask ++ [Backfill.add ⟨entry.1, {}, []⟩ found prs]

def backfillOf (payloads : List (String × Json)) : List Backfill :=
  payloads.foldl (backfillEvent json) []

/-- `updateTaskUrls`: nothing to write is no statement. -/
def updateTaskUrls (taskId : String) (urls : ExtractedUrls) (prUrls : List String) :
    CommanderM Unit :=
  match urlSets urls (if prUrls = [] then none else some prUrls) with
  | none => pure ()
  | some urls => do
    let at' : String ← ask .nowIso
    query (.updateTaskUrls taskId urls at')

def updateTasks : List Backfill → CommanderM Unit
  | [] => pure ()
  | backfill :: rest => do
    updateTaskUrls backfill.taskId backfill.urls backfill.prUrls
    updateTasks rest

def backfillTaskUrls : CommanderM Nat := do
  let payloads : List (String × Json) ← query .selectTaskPayloads
  let perTask := backfillOf json payloads
  updateTasks perTask
  pure perTask.length

/-- A missing field is left as it is, `null` clears it. -/
structure BundlePatch where
  status : Option BundleStatus := none
  slot : Option (Option BundleSlot) := none
  stagingUrl : Option (Option String) := none
  prUrl : Option (Option String) := none
  markers : Option Markers := none
  runId : Option (Option String) := none

def BundleStatus.ofText : String → Option BundleStatus
  | "merging" => some .merging
  | "deployed" => some .deployed
  | "failed" => some .failed
  | _ => none

def BundleSlot.ofText : String → Option BundleSlot
  | "staging" => some .staging
  | "staging2" => some .staging2
  | _ => none

def MarkerState.ofText : String → Option MarkerState
  | "pending" => some .pending
  | "pass" => some .pass
  | "missing" => some .missing
  | _ => none

/-- `null`, or a text that is not blank. -/
def patchText (value : Option Json) : Option (Option String) :=
  match value with
  | some .null => some none
  | some (.str text) => if trim text = "" then none else some (some (trim text))
  | _ => none

def parseBundlePatch (body : Json) : BundlePatch where
  status := ((body.field "status").bind Json.text?).bind BundleStatus.ofText
  slot :=
    match body.field "slot" with
    | some .null => some none
    | some (.str text) => (BundleSlot.ofText text).map some
    | _ => none
  stagingUrl := patchText (body.field "stagingUrl")
  prUrl := patchText (body.field "prUrl")
  markers :=
    match body.field "markers" with
    | some (.obj fields) => some (fields.filterMap fun entry =>
      (entry.2.text?.bind MarkerState.ofText).map fun state => (entry.1, state))
    | _ => none
  runId := patchText (body.field "runId")

/-- `markers[taskId]`. -/
def Markers.get (markers : Markers) (taskId : String) : Option MarkerState :=
  (markers.find? fun entry => entry.1 = taskId).map Prod.snd

/-- `Object.fromEntries`: a later entry replaces the value of an earlier one. -/
def fromEntries (entries : Markers) : Markers :=
  entries.foldl (fun markers entry =>
    if markers.any fun other => other.1 = entry.1 then
      markers.map fun other => if other.1 = entry.1 then entry else other
    else markers ++ [entry]) []

inductive CreateBundleOutcome where
  | ok (bundle : Option BundleRow)
  | tooFew
  | taskNotFound (taskIds : List String)
  | alreadyBundled (taskIds : List String)

/-- Two or more tasks that exist, none of which is in another bundle. -/
def createBundle (taskIds : List String) : CommanderM CreateBundleOutcome := do
  let ids := unique taskIds
  if ids.length < 2 then pure .tooFew
  else do
    let found : List String ← query (.selectTaskIds ids)
    let missing := ids.filter fun id => id ∉ found
    if missing ≠ [] then pure (.taskNotFound missing)
    else do
      let bundles : List BundleRow ← query .selectBundles
      let taken := bundles.flatMap BundleRow.taskIds
      let dup := ids.filter fun id => id ∈ taken
      if dup ≠ [] then pure (.alreadyBundled dup)
      else do
        let id : String ← ask (.newId "bundle")
        let at' : String ← ask .nowIso
        query (.insertBundle
          { id, taskIds := ids, status := .merging, slot := none, stagingUrl := none
            prUrl := none, branch := "staging/" ++ id
            markers := fromEntries (ids.map fun taskId => (taskId, .pending)), runId := none
            createdAt := at', updatedAt := at' })
        let bundle : Option BundleRow ← query (.selectBundle id)
        pure (.ok bundle)

def patchedMarkers (current : BundleRow) (markers : Option Markers) : Markers :=
  match markers with
  | none => current.markers
  | some patch => fromEntries (current.taskIds.map fun taskId =>
    (taskId, ((Markers.get patch taskId).or (Markers.get current.markers taskId)).getD .pending))

/-- The row is read, patched and written back, but for its task ids. -/
def updateBundle (id : String) (patch : BundlePatch) : CommanderM (Option BundleRow) := do
  let found : Option BundleRow ← query (.selectBundle id)
  match found with
  | none => pure none
  | some current => do
    let at' : String ← ask .nowIso
    query (.updateBundle
      { current with
        status := patch.status.getD current.status
        slot := patch.slot.getD current.slot
        stagingUrl := patch.stagingUrl.getD current.stagingUrl
        prUrl := patch.prUrl.getD current.prUrl
        markers := patchedMarkers current patch.markers
        runId := patch.runId.getD current.runId
        updatedAt := at' })
    query (.selectBundle id)

def deleteBundle (id : String) : CommanderM Bool :=
  query (.deleteBundle id)

inductive RemoveBundleTaskOutcome where
  | kept (bundle : Option BundleRow)
  | deleted

def removeBundleTask (id taskId : String) : CommanderM (Option RemoveBundleTaskOutcome) := do
  let found : Option BundleRow ← query (.selectBundle id)
  match found with
  | none => pure none
  | some current => do
    let taskIds := current.taskIds.filter fun other => other ≠ taskId
    if taskIds = [] then do
      let _ ← deleteBundle id
      pure (some .deleted)
    else do
      let at' : String ← ask .nowIso
      query (.updateBundleTasks id taskIds
        (current.markers.filter fun entry => entry.1 ≠ taskId) at')
      let bundle : Option BundleRow ← query (.selectBundle id)
      pure (some (.kept bundle))

/-- Whether `.` does not match the character. -/
def isLineEnd (c : Char) : Bool :=
  [10, 13, 0x2028, 0x2029].contains c.toNat

/-- `REPORT_RE` at this place: the braces behind the word, to the last one on the line. -/
def reportAt (text : List Char) : Option String :=
  let word := "BUNDLE_RESULT".toList
  if word.isPrefixOf text then
    let rest := (text.drop word.length).dropWhile isSpace
    let line := rest.takeWhile fun c => !isLineEnd c
    let braces := (line.reverse.dropWhile fun c => c ≠ Char.ofNat 125).reverse
    if line.head? = some (Char.ofNat 123) ∧ braces ≠ [] then some (String.ofList braces)
    else none
  else none

/-- The `BUNDLE_RESULT` object in the final text of a run, when it has a status. -/
def parseBundleReport (text : String) : Option BundlePatch :=
  ((text.toList.tails.findSome? reportAt).bind json.parse).bind fun value =>
    let patch := parseBundlePatch value
    if patch.status.isSome then some patch else none

def resultText (payload : Json) : Option String :=
  (payload.field "data").bind fun data =>
    if (data.field "type").bind Json.text? = some "result" then
      (data.field "result").bind Json.text?
    else none

def failedPatch : BundlePatch := { status := some .failed }

def applyBundleRunEvent (runId : String) (type : RunEventType) (payload : Json) : CommanderM Unit :=
  if type ≠ .claude ∧ type ≠ .exit then pure ()
  else do
    let found : Option String ← query (.selectBundleOfRun runId)
    match found with
    | none => pure ()
    | some id =>
      if type = .claude then
        match resultText payload with
        | none => pure ()
        | some text => do
          let _ ← updateBundle id ((parseBundleReport json text).getD failedPatch)
          pure ()
      else do
        let current : Option BundleRow ← query (.selectBundle id)
        if current.any fun bundle => bundle.status = .merging then do
          let _ ← updateBundle id failedPatch
          pure ()
        else pure ()

end DubEcosystem.Commander
