import DubEcosystem.CommanderSystem
import DubEcosystem.InterleavingBystanders

/-!
# commander-service: staging bundles

A bundle is read, and then written as a whole or but for its children.  What is to hold of
bundles, and the phases of the operations on them: what they have read is relied on until it
is written.
-/

namespace DubEcosystem.Commander

open Interleaving PortPrograms List

def Operation.onBundles : Operation → Bool
  | .createBundle _ => true
  | .updateBundle _ _ => true
  | .removeBundleTask _ _ => true
  | .deleteBundle _ => true
  | .applyBundleRunEvent _ _ _ => true
  | _ => false

def Operation.exitOf : Operation → Option String
  | .applyBundleRunEvent runId .exit _ => some runId
  | _ => none

def Markers.keys (markers : Markers) : List String :=
  markers.map Prod.fst

/-- No task is in two bundles or twice in one, and the children of a bundle, of which there
is at least one, are those that have markers. -/
structure Store.BundlesProper (store : Store) : Prop where
  distinct : ∀ bundle ∈ store.bundles, bundle.taskIds.Nodup
  apart : ∀ first ∈ store.bundles, ∀ second ∈ store.bundles, first.id ≠ second.id →
    ∀ taskId ∈ first.taskIds, taskId ∉ second.taskIds
  marked : ∀ bundle ∈ store.bundles, ∀ taskId,
    taskId ∈ bundle.markers.keys ↔ taskId ∈ bundle.taskIds
  nonempty : ∀ bundle ∈ store.bundles, bundle.taskIds ≠ []

def Store.OneBundlePerRun (store : Store) : Prop :=
  ∀ first ∈ store.bundles, ∀ second ∈ store.bundles, ∀ runId, first.runId = some runId →
    second.runId = some runId → first.id = second.id

/-- A child that has left a bundle does not come back, nor does its marker. -/
def ChildrenOnlyLeave (before after : Store) : Prop :=
  ∀ bundle ∈ before.bundles, ∀ later ∈ after.bundles, later.id = bundle.id →
    (∀ taskId ∈ later.taskIds, taskId ∈ bundle.taskIds) ∧
      ∀ taskId ∈ later.markers.keys, taskId ∈ bundle.markers.keys

structure BundlesKept (runtime : Runtime)
    (condition : RunCondition commanderSignature Store Operation) (store : Store) : Prop where
  proper : ∀ config,
    (commanderSystem runtime Operation.onBundles).ReachableUnder condition store config →
      config.world.BundlesProper
  onlyLeave : ∀ config after,
    (commanderSystem runtime Operation.onBundles).ReachableUnder condition store config →
    (commanderSystem runtime Operation.onBundles).StepUnder condition config after →
      ChildrenOnlyLeave config.world after.world
  /-- An exit event overwrites no status but merging. -/
  spared : ∀ runId payload watched row next,
    (commanderSystem runtime Operation.onBundles).WatchedUnder condition store
      (.applyBundleRunEvent runId .exit payload)
      (applyBundleRunEvent runtime.json runId .exit payload).run watched →
    watched.own = .call (.db (.updateBundle row)) next →
      ∀ bundle ∈ watched.world.bundles, bundle.id = row.id → bundle.status = .merging
  /-- Once the exit event of its run has been applied a bundle is not merging. -/
  settled : ∀ runId payload watched,
    (commanderSystem runtime Operation.onBundles).WatchedUnder condition store
      (.applyBundleRunEvent runId .exit payload)
      (applyBundleRunEvent runtime.json runId .exit payload).run watched →
    watched.own = .done (.ok ()) →
      ∀ bundle ∈ watched.world.bundles, bundle.runId = some runId → bundle.status ≠ .merging

def BundlesKeep (condition : RunCondition commanderSignature Store Operation)
    (runtime : Runtime) : Prop :=
  ∀ store, store.BundlesProper → store.OneBundlePerRun → BundlesKept runtime condition store

def Call.ListsBundles : Call → Prop
  | .db .selectBundles => True
  | _ => False

def Call.Bundles (taskIds : List String) : Call → Prop
  | .db (.insertBundle row) => ∃ taskId ∈ taskIds, taskId ∈ row.taskIds
  | _ => False

def Call.ReadsBundle (id : String) : Call → Prop
  | .db (.selectBundle other) => other = id
  | _ => False

def Call.WritesBundle (id : String) : Call → Prop
  | .db (.updateBundle row) => row.id = id
  | .db (.updateBundleTasks other _ _ _) => other = id
  | _ => False

/-- An operation that has listed the bundles, and may still put one of the tasks in a new
one. -/
def bundles (taskIds : List String) (thread : Operation × Prog commanderSignature Unit) : Prop :=
  thread.2.MayReach Call.ListsBundles (Call.Bundles taskIds)

/-- An operation that has read the bundle and may still write it, or an exit event that has
found it merging. -/
def rewrites (id : String) (thread : Operation × Prog commanderSignature Unit) : Prop :=
  thread.2.MayReach (Call.ReadsBundle id) (Call.WritesBundle id) ∨
    thread.1.exitOf.isSome = true ∧ ∃ request next answer, thread.2 = .call request next ∧
      (next answer).MayReach (Call.ReadsBundle id) (Call.WritesBundle id)

def hasLookedUp (runId : String) (thread : Operation × Prog commanderSignature Unit) : Prop :=
  thread.1.exitOf = some runId ∧ ∀ next, thread.2 ≠ .call (.db (.selectBundleOfRun runId)) next

/-- A bundle is put under a run that no other bundle has, and under it, or back to merging,
only before the exit event of the run looks its bundle up. -/
def PutsEarly (row : BundleRow) (store : Store)
    (others : List (Operation × Prog commanderSignature Unit)) : Prop :=
  ∀ bundle ∈ store.bundles, bundle.id = row.id → ∀ runId, row.runId = some runId →
    (bundle.runId ≠ some runId → ∀ other ∈ store.bundles, other.runId ≠ some runId) ∧
      (bundle.runId ≠ some runId ∨ bundle.status ≠ .merging → row.status = .merging →
        ∀ thread ∈ others, ¬hasLookedUp runId thread)

/-- Nothing is written to a bundle, or put in a new one, while another operation that has
read the same has still to write it. -/
def writesBundlesApart : RunCondition commanderSignature Store Operation where
  mayCall
    | .db (.insertBundle row), _, others =>
      ∀ thread ∈ others, ¬bundles row.taskIds thread ∧ ¬rewrites row.id thread
    | .db (.updateBundle row), store, others =>
      (∀ thread ∈ others, ¬rewrites row.id thread) ∧ PutsEarly row store others
    | .db (.updateBundleTasks id _ _ _), _, others => ∀ thread ∈ others, ¬rewrites id thread
    | _, _, _ => True
  mayStop _ := True

/-- Where the exit event of a run is: it has still to look the bundle up, is at the bundle, or
has nothing left to do. -/
inductive Exit where
  | no
  | waits (runId : String)
  | at' (runId id : String)
  | finished (runId : String)

def Exit.runId? : Exit → Option String
  | .no => none
  | .waits runId => some runId
  | .at' runId _ => some runId
  | .finished runId => some runId

inductive Held where
  | nothing
  | free (taskIds : List String)
  | read (current : BundleRow)
  | checked (current : BundleRow)
  | fails (current : BundleRow)

structure BundlePhase where
  exit : Exit
  held : Held

/-- Only the children have markers, and the children are those that were read. -/
structure WrittenFrom (current row : BundleRow) : Prop where
  sameId : row.id = current.id
  marked : row.markers = current.markers ∨
    ∀ taskId, taskId ∈ row.markers.keys ↔ taskId ∈ current.taskIds

structure ProperInsert (row : BundleRow) : Prop where
  marked : ∀ taskId, taskId ∈ row.markers.keys ↔ taskId ∈ row.taskIds
  noRun : row.runId = none

inductive BundlePhase.Leads :
    BundlePhase → (request : Call) → Except CommanderError (Call.Result request) →
      BundlePhase → Prop
  | clock {phase request answer} (isClock : request.IsClock)
      (notChecked : ∀ current, phase.held ≠ .checked current) : Leads phase request answer phase
  | tasks {exit ids answer} : Leads ⟨exit, .nothing⟩ (.db (.selectTaskIds ids)) answer
      ⟨exit, .nothing⟩
  | lists {exit} {found : List BundleRow} (ids : List String) (distinct : ids.Nodup)
      (nonempty : ids ≠ []) (isFree : ∀ bundle ∈ found, ∀ taskId ∈ bundle.taskIds, taskId ∉ ids) :
      Leads ⟨exit, .nothing⟩ (.db .selectBundles) (.ok found) ⟨exit, .free ids⟩
  | taken {exit answer} : Leads ⟨exit, .nothing⟩ (.db .selectBundles) answer ⟨exit, .nothing⟩
  | inserts {exit ids row answer} (isRow : row.taskIds = ids) (proper : ProperInsert row) :
      Leads ⟨exit, .free ids⟩ (.db (.insertBundle row)) answer ⟨exit, .nothing⟩
  | glimpses {id answer} : Leads ⟨.no, .nothing⟩ (.db (.selectBundle id)) answer ⟨.no, .nothing⟩
  | glimpsesOver {runId id answer} :
      Leads ⟨.finished runId, .nothing⟩ (.db (.selectBundle id)) answer ⟨.finished runId, .nothing⟩
  | reads {id} {current : BundleRow} (isId : current.id = id) :
      Leads ⟨.no, .nothing⟩ (.db (.selectBundle id)) (.ok (some current)) ⟨.no, .read current⟩
  | updates {current row answer} (isFrom : WrittenFrom current row) :
      Leads ⟨.no, .read current⟩ (.db (.updateBundle row)) answer ⟨.no, .nothing⟩
  | drops {current at'} {answer : Except CommanderError Unit} (taskId : String)
      (remains : (current.taskIds.filter fun other => other ≠ taskId) ≠ []) :
      Leads ⟨.no, .read current⟩ (.db (.updateBundleTasks current.id
        (current.taskIds.filter fun other => other ≠ taskId)
        (current.markers.filter fun entry => entry.1 ≠ taskId) at')) answer ⟨.no, .nothing⟩
  | deletes {exit id answer} : Leads ⟨exit, .nothing⟩ (.db (.deleteBundle id)) answer
      ⟨exit, .nothing⟩
  | looksForReport {runId answer} : Leads ⟨.no, .nothing⟩ (.db (.selectBundleOfRun runId)) answer
      ⟨.no, .nothing⟩
  | findsNone {runId} : Leads ⟨.waits runId, .nothing⟩ (.db (.selectBundleOfRun runId)) (.ok none)
      ⟨.finished runId, .nothing⟩
  | finds {runId id} : Leads ⟨.waits runId, .nothing⟩ (.db (.selectBundleOfRun runId))
      (.ok (some id)) ⟨.at' runId id, .nothing⟩
  | missing {runId id} : Leads ⟨.at' runId id, .nothing⟩ (.db (.selectBundle id)) (.ok none)
      ⟨.finished runId, .nothing⟩
  | settled {runId id} {current : BundleRow} (isId : current.id = id)
      (isSettled : current.status ≠ .merging) :
      Leads ⟨.at' runId id, .nothing⟩ (.db (.selectBundle id)) (.ok (some current))
        ⟨.finished runId, .nothing⟩
  | checks {runId id} {current : BundleRow} (isId : current.id = id)
      (isMerging : current.status = .merging) :
      Leads ⟨.at' runId id, .nothing⟩ (.db (.selectBundle id)) (.ok (some current))
        ⟨.at' runId id, .checked current⟩
  | gone {runId checked} : Leads ⟨.at' runId checked.id, .checked checked⟩
      (.db (.selectBundle checked.id)) (.ok none) ⟨.finished runId, .nothing⟩
  | rereads {runId checked} {current : BundleRow} (isId : current.id = checked.id) :
      Leads ⟨.at' runId checked.id, .checked checked⟩ (.db (.selectBundle checked.id))
        (.ok (some current)) ⟨.at' runId current.id, .fails current⟩
  | fails {runId current row} (isFrom : WrittenFrom current row) (isFailed : row.status = .failed) :
      Leads ⟨.at' runId current.id, .fails current⟩ (.db (.updateBundle row)) (.ok ())
        ⟨.finished runId, .nothing⟩
  | thrown {phase request error} : Leads phase request (.error error) ⟨phase.exit, .nothing⟩

/-- What was read to be written has been written. -/
def BundlePhase.Ended (phase : BundlePhase) : Prop :=
  phase.held = .nothing

def SelectsById : (request : Call) → Except CommanderError (Call.Result request) → Prop
  | .db (.selectBundle id), .ok (found : Option BundleRow) =>
    ∀ bundle, found = some bundle → bundle.id = id
  | _, _ => True

def bundleProtocol : Protocol commanderSignature BundlePhase where
  possible := SelectsById
  leads := BundlePhase.Leads
  final := BundlePhase.Ended

theorem mem_keys_fromEntries {entries : Markers} {taskId : String} :
    taskId ∈ (fromEntries entries).keys ↔ taskId ∈ entries.keys := by
  suffices ∀ markers : Markers, taskId ∈ Markers.keys (entries.foldl (fun markers entry =>
      if markers.any fun other => other.1 = entry.1 then
        markers.map fun other => if other.1 = entry.1 then entry else other
      else markers ++ [entry]) markers) ↔ taskId ∈ markers.keys ∨ taskId ∈ entries.keys by
    simpa [Markers.keys, fromEntries] using this []
  induction entries with
  | nil => simp [Markers.keys]
  | cons entry rest ih =>
    intro markers
    rw [foldl_cons, ih]
    have step : taskId ∈ Markers.keys (if markers.any fun other => other.1 = entry.1 then
        markers.map fun other => if other.1 = entry.1 then entry else other
        else markers ++ [entry]) ↔ taskId ∈ markers.keys ∨ taskId = entry.1 := by
      split
      · rename_i isKey
        obtain ⟨old, oldMem, isOld⟩ := any_eq_true.mp isKey
        have sameKeys : Markers.keys
            (markers.map fun other => if other.1 = entry.1 then entry else other) =
              markers.keys := by
          simp only [Markers.keys, List.map_map]
          apply map_congr_left
          intro other _
          simp only [Function.comp_apply]
          split
          · rename_i same
            exact same.symm
          · rfl
        rw [sameKeys]
        constructor
        · exact .inl
        · rintro (isIn | rfl)
          · exact isIn
          · exact List.mem_map.mpr ⟨old, oldMem, of_decide_eq_true isOld⟩
      · simp [Markers.keys]
    rw [step]
    simp only [Markers.keys, map_cons, mem_cons, or_assoc]

theorem patchedMarkers_marked (current : BundleRow) (markers : Option Markers) :
    patchedMarkers current markers = current.markers ∨
      ∀ taskId, taskId ∈ (patchedMarkers current markers).keys ↔ taskId ∈ current.taskIds := by
  cases markers with
  | none => exact .inl rfl
  | some patch =>
    right
    intro taskId
    rw [patchedMarkers, mem_keys_fromEntries]
    simp [Markers.keys]

variable {exit : Exit}

section Asks

variable {α : Type} {phase : BundlePhase} {request : Call}
  {continuation : Call.Result request → CommanderM α}
  {post : Except CommanderError α → BundlePhase → Prop}
  (fails : ∀ error, post (.error error) ⟨phase.exit, .nothing⟩)
include fails

theorem bundleFollows_ask (returns : ∀ result, SelectsById request (.ok result) → ∃ after,
      BundlePhase.Leads phase request (.ok result) after ∧
        Follows bundleProtocol after (continuation result) post) :
    Follows bundleProtocol phase (ask request >>= continuation) post := by
  apply follows_port_bind returns
  exact fun thrown _ => ⟨_, .thrown, fails thrown⟩

theorem bundleFollows_clock (isClock : request.IsClock)
    (notChecked : ∀ current, phase.held ≠ .checked current)
    (rest : ∀ result, Follows bundleProtocol phase (continuation result) post) :
    Follows bundleProtocol phase (ask request >>= continuation) post := by
  apply bundleFollows_ask fails
  exact fun result _ => ⟨phase, .clock isClock notChecked, rest result⟩

end Asks

theorem createBundle_follows (taskIds : List String) :
    Follows bundleProtocol ⟨.no, .nothing⟩ (createBundle taskIds) fun _ after =>
      after.Ended := by
  simp only [createBundle]
  split
  · exact follows_pure rfl
  rename_i enough
  apply bundleFollows_ask fun _ => rfl
  intro found _
  refine ⟨_, .tasks, ?_⟩
  split
  · exact follows_pure rfl
  apply bundleFollows_ask fun _ => rfl
  intro listed _
  by_cases dup : ((unique taskIds).filter fun id =>
      id ∈ (listed : List BundleRow).flatMap BundleRow.taskIds) = []
  · have leads : BundlePhase.Leads ⟨.no, .nothing⟩ (.db .selectBundles) (.ok listed)
        ⟨.no, .free (unique taskIds)⟩ := by
      apply BundlePhase.Leads.lists
      · exact nodup_reverse.mpr (nodup_dedup _)
      · intro isEmpty
        rw [isEmpty] at enough
        exact enough (by decide)
      · intro bundle member taskId isChild isIn
        have taken := filter_eq_nil_iff.mp dup taskId isIn
        apply taken
        exact decide_eq_true (mem_flatMap.mpr ⟨bundle, member, isChild⟩)
    refine ⟨_, leads, ?_⟩
    rw [if_neg (by simpa using dup)]
    refine bundleFollows_clock (fun _ => rfl) trivial ?_ fun id => ?_
    · exact fun _ isChecked => by cases isChecked
    refine bundleFollows_clock (fun _ => rfl) trivial ?_ fun at' => ?_
    · exact fun _ isChecked => by cases isChecked
    apply bundleFollows_ask fun _ => rfl
    rintro ⟨⟩ _
    refine ⟨_, .inserts rfl ⟨fun taskId => ?_, rfl⟩, ?_⟩
    · rw [mem_keys_fromEntries]
      simp [Markers.keys]
    apply bundleFollows_ask fun _ => rfl
    exact fun bundle _ => ⟨_, .glimpses, follows_pure rfl⟩
  · refine ⟨_, .taken, ?_⟩
    rw [if_pos dup]
    exact follows_pure rfl

theorem updateBundle_follows (id : String) (patch : BundlePatch) :
    Follows bundleProtocol ⟨.no, .nothing⟩ (updateBundle id patch) fun _ after =>
      after = ⟨.no, .nothing⟩ := by
  apply bundleFollows_ask fun _ => rfl
  rintro (_ | current) isPossible
  · exact ⟨_, .glimpses, follows_pure rfl⟩
  refine ⟨_, .reads (isPossible current rfl), ?_⟩
  refine bundleFollows_clock (fun _ => rfl) trivial ?_ fun at' => ?_
  · exact fun _ isChecked => by cases isChecked
  apply bundleFollows_ask fun _ => rfl
  rintro ⟨⟩ _
  refine ⟨_, .updates ⟨rfl, patchedMarkers_marked current patch.markers⟩, ?_⟩
  apply follows_port
  intro answer _
  exact ⟨_, .glimpses, rfl⟩

/-- An exit event that has found the bundle merging fails it. -/
theorem failBundle_follows {runId : String} {checked : BundleRow} :
    Follows bundleProtocol ⟨.at' runId checked.id, .checked checked⟩
      (updateBundle checked.id failedPatch) fun
      | .ok _, after => after = ⟨.finished runId, .nothing⟩
      | .error _, after => after.Ended := by
  apply bundleFollows_ask fun _ => rfl
  rintro (_ | current) isPossible
  · exact ⟨_, .gone, follows_pure rfl⟩
  refine ⟨_, .rereads (isPossible current rfl), ?_⟩
  refine bundleFollows_clock (fun _ => rfl) trivial ?_ fun at' => ?_
  · exact fun _ isChecked => by cases isChecked
  apply bundleFollows_ask fun _ => rfl
  rintro ⟨⟩ _
  refine ⟨_, .fails ⟨rfl, .inl rfl⟩ rfl, ?_⟩
  apply follows_port
  rintro (thrown | answer) _
  · exact ⟨_, .glimpsesOver, rfl⟩
  · exact ⟨_, .glimpsesOver, rfl⟩

theorem deleteBundle_follows (id : String) :
    Follows bundleProtocol ⟨.no, .nothing⟩ (deleteBundle id) fun _ after =>
      after = ⟨.no, .nothing⟩ := by
  apply follows_port
  intro answer _
  exact ⟨_, .deletes, rfl⟩

theorem removeBundleTask_follows (id taskId : String) :
    Follows bundleProtocol ⟨.no, .nothing⟩ (removeBundleTask id taskId) fun _ after =>
      after.Ended := by
  apply bundleFollows_ask fun _ => rfl
  rintro (_ | current) isPossible
  · exact ⟨_, .glimpses, follows_pure rfl⟩
  by_cases isLast : (current.taskIds.filter fun other => other ≠ taskId) = []
  · refine ⟨_, .glimpses, ?_⟩
    simp only []
    rw [if_pos isLast]
    apply follows_bind
    apply (deleteBundle_follows id).mono
    rintro (thrown | deleted) after rfl
    · rfl
    · exact follows_pure rfl
  · obtain rfl : current.id = id := isPossible current rfl
    refine ⟨_, .reads rfl, ?_⟩
    simp only []
    rw [if_neg isLast]
    refine bundleFollows_clock (fun _ => rfl) trivial ?_ fun at' => ?_
    · exact fun _ isChecked => by cases isChecked
    apply bundleFollows_ask fun _ => rfl
    rintro ⟨⟩ _
    refine ⟨_, .drops taskId isLast, ?_⟩
    apply bundleFollows_ask fun _ => rfl
    exact fun bundle _ => ⟨_, .glimpses, follows_pure rfl⟩

def ExitEnds (runId : String) : Except Thrown Unit → BundlePhase → Prop
  | .ok _, after => after = ⟨.finished runId, .nothing⟩
  | .error _, after => after.Ended

theorem exit_follows {runtime : Runtime} (runId : String) (payload : Json) :
    Follows bundleProtocol ⟨.waits runId, .nothing⟩
      (applyBundleRunEvent runtime.json runId .exit payload) (ExitEnds runId) := by
  unfold applyBundleRunEvent
  rw [if_neg (by simp)]
  apply bundleFollows_ask fun _ => rfl
  rintro (_ | id) -
  · exact ⟨_, .findsNone, follows_pure rfl⟩
  refine ⟨_, .finds, ?_⟩
  simp only []
  rw [if_neg (by simp)]
  apply bundleFollows_ask fun _ => rfl
  rintro (_ | current) isPossible
  · exact ⟨_, .missing, follows_pure rfl⟩
  by_cases isMerging : current.status = .merging
  · obtain rfl : current.id = id := isPossible current rfl
    refine ⟨_, .checks rfl isMerging, ?_⟩
    rw [if_pos (by simpa using isMerging)]
    apply follows_bind
    apply failBundle_follows.mono
    rintro (thrown | bundle) after ended
    · exact ended
    · exact follows_pure ended
  · refine ⟨_, .settled (isPossible current rfl) isMerging, ?_⟩
    rw [if_neg (by simpa using isMerging)]
    exact follows_pure rfl

variable {runtime : Runtime}

theorem report_follows (runId : String) (type : RunEventType)
    (payload : Json) (notExit : type ≠ .exit) :
    Follows bundleProtocol ⟨.no, .nothing⟩
      (applyBundleRunEvent runtime.json runId type payload) fun _ after => after.Ended := by
  unfold applyBundleRunEvent
  by_cases isReport : type = .claude
  · rw [if_neg (by simp [isReport])]
    apply bundleFollows_ask fun _ => rfl
    rintro (_ | id) -
    · exact ⟨_, .looksForReport, follows_pure rfl⟩
    refine ⟨_, .looksForReport, ?_⟩
    simp only []
    rw [if_pos isReport]
    split
    · exact follows_pure rfl
    · apply follows_bind
      apply (updateBundle_follows _ _).mono
      rintro (thrown | bundle) after rfl
      · rfl
      · exact follows_pure rfl
  · rw [if_pos ⟨isReport, notExit⟩]
    exact follows_pure rfl

def BundlePhase.first (op : Operation) : BundlePhase :=
  ⟨(op.exitOf.map Exit.waits).getD .no, .nothing⟩

theorem actionOf_bundleFollows {op : Operation} (onBundles : op.onBundles = true) :
    bundleProtocol.Follows (.first op) ((actionOf runtime op).run >>= fun _ => pure ()) := by
  cases op with
  | createBundle taskIds => exact silently_follows (createBundle_follows taskIds)
  | updateBundle id patch =>
    apply silently_follows
    exact (updateBundle_follows id patch).mono fun _ after same => same ▸ rfl
  | removeBundleTask id taskId => exact silently_follows (removeBundleTask_follows id taskId)
  | deleteBundle id =>
    apply silently_follows
    exact (deleteBundle_follows id).mono fun _ after same => same ▸ rfl
  | applyBundleRunEvent runId type payload =>
    apply silently_follows
    by_cases isExit : type = .exit
    · subst isExit
      apply (exit_follows runId payload).mono
      rintro (thrown | value) after ended
      · exact ended
      · exact ended ▸ rfl
    · have first : BundlePhase.first (.applyBundleRunEvent runId type payload) =
          ⟨.no, .nothing⟩ := by
        cases type <;> first | rfl | exact absurd rfl isExit
      rw [first]
      exact report_follows runId type payload isExit
  | _ => cases onBundles

end DubEcosystem.Commander
