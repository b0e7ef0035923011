import DubEcosystem.CommanderBundles

/-!
# commander-service: what holds of bundles while they are written

A write takes children out of bundles or leaves them, and an insert brings children that are
in no bundle.
-/

namespace DubEcosystem.Commander

open Interleaving PortPrograms List KeyedTable Except

variable {store after : Store}

/-- Bundles lose children, or are deleted. -/
def BundlesShrink (before after : Store) : Prop :=
  ∀ later ∈ after.bundles, ∃ bundle ∈ before.bundles, later.id = bundle.id ∧
    later.taskIds.Sublist bundle.taskIds ∧ later.taskIds ≠ [] ∧
      ∀ taskId, taskId ∈ later.markers.keys ↔ taskId ∈ later.taskIds

theorem BundlesShrink.proper (shrink : BundlesShrink store after)
    (proper : store.BundlesProper) : after.BundlesProper := by
  constructor
  · intro later member
    obtain ⟨bundle, bundleMem, -, within, -⟩ := shrink later member
    exact (proper.distinct bundle bundleMem).sublist within
  · intro first firstMem second secondMem differ taskId isFirst isSecond
    obtain ⟨old, oldMem, sameId, within, -⟩ := shrink first firstMem
    obtain ⟨other, otherMem, sameOther, withinOther, -⟩ := shrink second secondMem
    rw [sameId, sameOther] at differ
    exact proper.apart old oldMem other otherMem differ taskId (within.subset isFirst)
      (withinOther.subset isSecond)
  · intro later member
    obtain ⟨bundle, bundleMem, -, -, -, marked⟩ := shrink later member
    exact marked
  · intro later member
    obtain ⟨bundle, bundleMem, -, -, nonempty, -⟩ := shrink later member
    exact nonempty

theorem BundlesShrink.onlyLeave (shrink : BundlesShrink store after)
    (proper : store.BundlesProper) : ChildrenOnlyLeave store after := by
  intro bundle bundleMem later member sameId
  obtain ⟨old, oldMem, sameOld, within, -, marked⟩ := shrink later member
  obtain rfl := eq_of_key_eq bundleMem oldMem (sameId.symm.trans sameOld)
  refine ⟨within.subset, fun taskId isKey => ?_⟩
  exact (proper.marked bundle bundleMem taskId).mpr (within.subset ((marked taskId).mp isKey))

theorem Store.BundlesProper.shrink_refl (proper : store.BundlesProper) :
    BundlesShrink store store :=
  fun bundle member => ⟨bundle, member, rfl, List.Sublist.refl _,
    proper.nonempty bundle member, proper.marked bundle member⟩

def Store.Stored (store : Store) (current : BundleRow) : Prop :=
  ∀ bundle ∈ store.bundles, bundle.id = current.id → bundle = current

variable {later : BundleRow}

variable {row : BundleRow}

theorem Store.mem_updateBundle :
    later ∈ (store.updateBundle row).bundles ↔ ∃ bundle ∈ store.bundles, (if bundle.id = row.id then
        { bundle with
          status := row.status, slot := row.slot, stagingUrl := row.stagingUrl
          prUrl := row.prUrl, markers := row.markers, runId := row.runId
          updatedAt := row.updatedAt }
      else bundle) = later := by
  simp only [Store.updateBundle, mem_update, decide_eq_true_eq]

variable {markers : Markers}

variable {taskIds : List String}

theorem Store.mem_updateBundleTasks {id at' : String} :
    later ∈ (store.updateBundleTasks id taskIds markers at').bundles ↔ ∃ bundle ∈ store.bundles,
      (if bundle.id = id then { bundle with taskIds, markers, updatedAt := at' }
      else bundle) = later := by
  simp only [Store.updateBundleTasks, mem_update, decide_eq_true_eq]

variable {current : BundleRow}

/-- A row that was made of what is stored leaves the children. -/
theorem WrittenFrom.shrink (isFrom : WrittenFrom current row)
    (proper : store.BundlesProper) (stored : store.Stored current) :
    BundlesShrink store (store.updateBundle row) := by
  intro later member
  obtain ⟨bundle, bundleMem, rfl⟩ := Store.mem_updateBundle.mp member
  refine ⟨bundle, bundleMem, ?_⟩
  split
  · rename_i isRow
    obtain rfl := stored bundle bundleMem (isRow.trans isFrom.sameId)
    refine ⟨rfl, List.Sublist.refl _, proper.nonempty bundle bundleMem, ?_⟩
    rcases isFrom.marked with same | marked
    · intro taskId
      simp only [same]
      exact proper.marked bundle bundleMem taskId
    · exact marked
  · exact ⟨rfl, List.Sublist.refl _, proper.nonempty bundle bundleMem,
      proper.marked bundle bundleMem⟩

theorem mem_keys_filter {taskId other : String} :
    taskId ∈ Markers.keys (markers.filter fun entry => entry.1 ≠ other) ↔
      taskId ∈ markers.keys ∧ taskId ≠ other := by
  simp only [Markers.keys, List.mem_map, mem_filter, decide_eq_true_eq]
  constructor
  · rintro ⟨entry, ⟨member, differs⟩, rfl⟩
    exact ⟨⟨entry, member, rfl⟩, differs⟩
  · rintro ⟨⟨entry, member, rfl⟩, differs⟩
    exact ⟨entry, ⟨member, differs⟩, rfl⟩

theorem drop_shrink {current : BundleRow} {taskId at' : String} (proper : store.BundlesProper)
    (stored : store.Stored current)
    (remains : (current.taskIds.filter fun other => other ≠ taskId) ≠ []) :
    BundlesShrink store (store.updateBundleTasks current.id
      (current.taskIds.filter fun other => other ≠ taskId)
      (current.markers.filter fun entry => entry.1 ≠ taskId) at') := by
  intro later member
  obtain ⟨bundle, bundleMem, rfl⟩ := Store.mem_updateBundleTasks.mp member
  refine ⟨bundle, bundleMem, ?_⟩
  split
  · rename_i isRow
    obtain rfl := stored bundle bundleMem isRow
    refine ⟨rfl, filter_sublist, remains, fun other => ?_⟩
    rw [mem_keys_filter, proper.marked bundle bundleMem, mem_filter, decide_eq_true_eq]
  · exact ⟨rfl, List.Sublist.refl _, proper.nonempty bundle bundleMem,
      proper.marked bundle bundleMem⟩

variable {id : String}

theorem Store.mem_deleteBundle :
    later ∈ (store.deleteBundle id).2.bundles ↔ later ∈ store.bundles ∧ later.id ≠ id := by
  simp [Store.deleteBundle]

theorem delete_shrink {id : String} (proper : store.BundlesProper) :
    BundlesShrink store (store.deleteBundle id).2 :=
  fun later member => proper.shrink_refl later (Store.mem_deleteBundle.mp member).1

theorem Store.insertBundle_cases (store : Store) (row : BundleRow) :
    (store.insertBundle row).2 = store ∨ (∀ bundle ∈ store.bundles, bundle.id ≠ row.id) ∧
      ∀ later, later ∈ (store.insertBundle row).2.bundles ↔ later ∈ store.bundles ∨ later = row := by
  unfold Store.insertBundle
  split
  · exact .inl rfl
  · rename_i bundles inserted
    exact .inr ⟨(insert?_eq_some inserted).2, fun _ => mem_insert? inserted⟩

def Exit.Holds (store : Store) : Exit → Prop
  | .no => True
  | .waits _ => True
  | .at' runId id => ∀ bundle ∈ store.bundles, bundle.runId = some runId →
      bundle.status = .merging → bundle.id = id
  | .finished runId => ∀ bundle ∈ store.bundles, bundle.runId = some runId →
      bundle.status ≠ .merging

def Held.Holds (store : Store) : Held → Prop
  | .nothing => True
  | .free taskIds => taskIds.Nodup ∧ taskIds ≠ [] ∧
      ∀ bundle ∈ store.bundles, ∀ taskId ∈ bundle.taskIds, taskId ∉ taskIds
  | .read current => store.Stored current
  | .checked current => store.Stored current ∧ current.status = .merging
  | .fails current => store.Stored current ∧ current.status = .merging

def Exit.looked? : Exit → Option String
  | .at' runId _ => some runId
  | .finished runId => some runId
  | _ => none

structure BundlePhase.Holds (store : Store) (phase : BundlePhase) : Prop where
  exit : phase.exit.Holds store
  held : phase.held.Holds store

def BundlePhase.Owns (op : Operation) (phase : BundlePhase) : Prop :=
  phase.exit.runId? = op.exitOf

structure BundlesInvariant (store : Store) : Prop where
  proper : store.BundlesProper
  oneRun : store.OneBundlePerRun

variable {phase : BundlePhase}

variable {exit : Exit}

section

variable (isHeld : exit.Holds store)
include isHeld

theorem Exit.Holds.mono (within : ∀ later ∈ after.bundles, ∀ runId, later.runId = some runId →
      later.status = .merging → exit.looked? = some runId →
        ∃ bundle ∈ store.bundles, bundle.id = later.id ∧ bundle.runId = some runId ∧
          bundle.status = .merging) : exit.Holds after := by
  cases exit with
  | no | waits runId => exact trivial
  | at' runId id =>
    intro later member isRun isMerging
    obtain ⟨bundle, bundleMem, sameId, wasRun, wasMerging⟩ :=
      within later member runId isRun isMerging rfl
    exact sameId.symm.trans (isHeld bundle bundleMem wasRun wasMerging)
  | finished runId =>
    intro later member isRun isMerging
    obtain ⟨bundle, bundleMem, sameId, wasRun, wasMerging⟩ :=
      within later member runId isRun isMerging rfl
    exact isHeld bundle bundleMem wasRun wasMerging

theorem Exit.Holds.updateBundle
    {others : List (Operation × Prog commanderSignature Unit)}
    (early : PutsEarly row store others)
    (looked : ∀ runId, exit.looked? = some runId → ∃ thread ∈ others, hasLookedUp runId thread) :
    exit.Holds (store.updateBundle row) := by
  apply isHeld.mono
  intro later member runId isRun isMerging isExit
  obtain ⟨bundle, bundleMem, rfl⟩ := Store.mem_updateBundle.mp member
  by_cases isRow : bundle.id = row.id
  · rw [if_pos isRow] at isRun isMerging ⊢
    obtain ⟨thread, isOther, hasLooked⟩ := looked runId isExit
    have put := (early bundle bundleMem isRow runId isRun).2
    by_cases same : bundle.runId = some runId ∧ bundle.status = .merging
    · exact ⟨bundle, bundleMem, rfl, same.1, same.2⟩
    · exact absurd hasLooked (put (by tauto) isMerging thread isOther)
  · rw [if_neg isRow] at isRun isMerging ⊢
    exact ⟨bundle, bundleMem, rfl, isRun, isMerging⟩

theorem Exit.Holds.updateBundleTasks {id at' : String} {taskIds : List String} :
    exit.Holds (store.updateBundleTasks id taskIds markers at') := by
  apply isHeld.mono
  intro later member runId isRun isMerging _
  obtain ⟨bundle, bundleMem, rfl⟩ := Store.mem_updateBundleTasks.mp member
  by_cases isRow : bundle.id = id
  · rw [if_pos isRow] at isRun isMerging ⊢
    exact ⟨bundle, bundleMem, rfl, isRun, isMerging⟩
  · rw [if_neg isRow] at isRun isMerging ⊢
    exact ⟨bundle, bundleMem, rfl, isRun, isMerging⟩

theorem Exit.Holds.deleteBundle : exit.Holds (store.deleteBundle id).2 := by
  apply isHeld.mono
  intro later member runId isRun isMerging _
  exact ⟨later, (Store.mem_deleteBundle.mp member).1, rfl, isRun, isMerging⟩

theorem Exit.Holds.insertBundle (noRun : row.runId = none) :
    exit.Holds (store.insertBundle row).2 := by
  rcases store.insertBundle_cases row with same | ⟨-, isIn⟩
  · rw [same]
    exact isHeld
  · apply isHeld.mono
    intro later member runId isRun isMerging _
    rcases (isIn later).mp member with isOld | rfl
    · exact ⟨later, isOld, rfl, isRun, isMerging⟩
    · rw [noRun] at isRun
      cases isRun

end

/-- What is made of the rows of other bundles does not matter to one that was read. -/
theorem Store.Stored.mono (stored : store.Stored current)
    (others : ∀ later ∈ after.bundles, later.id = current.id → later ∈ store.bundles) :
    after.Stored current :=
  fun later member isId => stored later (others later member isId) isId

/-- The bundles that were read are not written, and no listed task is put in a new one. -/
theorem Held.Holds.mono {held : Held} (isHeld : held.Holds store)
    (others : ∀ current, held = .read current ∨ held = .checked current ∨ held = .fails current →
      ∀ later ∈ after.bundles, later.id = current.id → later ∈ store.bundles)
    (children : ∀ taskIds, held = .free taskIds → ∀ later ∈ after.bundles,
      ∀ taskId ∈ later.taskIds, taskId ∈ taskIds →
        ∃ bundle ∈ store.bundles, taskId ∈ bundle.taskIds) : held.Holds after := by
  cases held with
  | nothing => exact trivial
  | free taskIds =>
    refine ⟨isHeld.1, isHeld.2.1, fun later member taskId isChild isIn => ?_⟩
    obtain ⟨bundle, bundleMem, wasChild⟩ := children taskIds rfl later member taskId isChild isIn
    exact isHeld.2.2 bundle bundleMem taskId wasChild isIn
  | read current => exact Store.Stored.mono isHeld (others current (.inl rfl))
  | checked current => exact ⟨isHeld.1.mono (others current (.inr (.inl rfl))), isHeld.2⟩
  | fails current => exact ⟨isHeld.1.mono (others current (.inr (.inr rfl))), isHeld.2⟩

section Calls

theorem Store.OneBundlePerRun.mono (oneRun : store.OneBundlePerRun)
    (same : ∀ later ∈ after.bundles, ∃ bundle ∈ store.bundles, bundle.id = later.id ∧
      bundle.runId = later.runId) : after.OneBundlePerRun := by
  intro first firstMem second secondMem runId isFirst isSecond
  obtain ⟨old, oldMem, sameOld, runOld⟩ := same first firstMem
  obtain ⟨other, otherMem, sameOther, runOther⟩ := same second secondMem
  rw [← sameOld, ← sameOther]
  exact oneRun old oldMem other otherMem runId (runOld.trans isFirst) (runOther.trans isSecond)

variable {others : List (Operation × Prog commanderSignature Unit)}

theorem Store.OneBundlePerRun.updateBundle (oneRun : store.OneBundlePerRun)
    (early : PutsEarly row store others) : (store.updateBundle row).OneBundlePerRun := by
  have written : ∀ later ∈ (store.updateBundle row).bundles, ∀ runId, later.runId = some runId →
      ∃ bundle ∈ store.bundles, bundle.id = later.id ∧
        (bundle.runId = some runId ∨ bundle.id = row.id ∧
          ∀ other ∈ store.bundles, other.runId ≠ some runId) := by
    intro later member runId isRun
    obtain ⟨bundle, bundleMem, rfl⟩ := Store.mem_updateBundle.mp member
    by_cases isRow : bundle.id = row.id
    · rw [if_pos isRow] at isRun ⊢
      refine ⟨bundle, bundleMem, rfl, ?_⟩
      by_cases wasRun : bundle.runId = some runId
      · exact .inl wasRun
      · exact .inr ⟨isRow, (early bundle bundleMem isRow runId isRun).1 wasRun⟩
    · rw [if_neg isRow] at isRun ⊢
      exact ⟨bundle, bundleMem, rfl, .inl isRun⟩
  intro first firstMem second secondMem runId isFirst isSecond
  obtain ⟨old, oldMem, sameOld, wasOld⟩ := written first firstMem runId isFirst
  obtain ⟨other, otherMem, sameOther, wasOther⟩ := written second secondMem runId isSecond
  rw [← sameOld, ← sameOther]
  rcases wasOld with wasOld | ⟨isRow, noneBefore⟩
  · rcases wasOther with wasOther | ⟨-, noneBefore⟩
    · exact oneRun old oldMem other otherMem runId wasOld wasOther
    · exact absurd wasOld (noneBefore old oldMem)
  · rcases wasOther with wasOther | ⟨isOther, -⟩
    · exact absurd wasOther (noneBefore other otherMem)
    · exact isRow.trans isOther.symm

/-- What a call under the condition does to the store. -/
structure BundleMove (store moved : Store) : Prop where
  invariant : BundlesInvariant moved
  onlyLeave : ChildrenOnlyLeave store moved

section

variable (invariant : BundlesInvariant store)
include invariant

theorem BundlesInvariant.stays : BundleMove store store :=
  ⟨invariant, invariant.proper.shrink_refl.onlyLeave invariant.proper⟩

theorem BundlesInvariant.update {current row : BundleRow} (isFrom : WrittenFrom current row)
    (stored : store.Stored current) (early : PutsEarly row store others) :
    BundleMove store (store.updateBundle row) := by
  have shrink := isFrom.shrink invariant.proper stored
  exact ⟨⟨shrink.proper invariant.proper, invariant.oneRun.updateBundle early⟩,
    shrink.onlyLeave invariant.proper⟩

theorem BundlesInvariant.insert (proper : ProperInsert row)
    (isFree : (Held.free row.taskIds).Holds store) :
    BundleMove store (store.insertBundle row).2 := by
  rcases store.insertBundle_cases row with same | ⟨isNew, isIn⟩
  · rw [same]
    exact invariant.stays
  obtain ⟨distinct, nonempty, isFree⟩ := isFree
  refine ⟨⟨⟨?_, ?_, ?_, ?_⟩, ?_⟩, ?_⟩
  · intro later member
    rcases (isIn later).mp member with isOld | rfl
    · exact invariant.proper.distinct later isOld
    · exact distinct
  · intro first firstMem second secondMem differ taskId isFirst isSecond
    rcases (isIn first).mp firstMem with isOld | rfl
    · rcases (isIn second).mp secondMem with isOther | rfl
      · exact invariant.proper.apart first isOld second isOther differ taskId isFirst isSecond
      · exact isFree first isOld taskId isFirst isSecond
    · rcases (isIn second).mp secondMem with isOther | rfl
      · exact isFree second isOther taskId isSecond isFirst
      · exact differ rfl
  · intro later member
    rcases (isIn later).mp member with isOld | rfl
    · exact invariant.proper.marked later isOld
    · exact proper.marked
  · intro later member
    rcases (isIn later).mp member with isOld | rfl
    · exact invariant.proper.nonempty later isOld
    · exact nonempty
  · intro first firstMem second secondMem runId isFirst isSecond
    rcases (isIn first).mp firstMem with isOld | rfl
    · rcases (isIn second).mp secondMem with isOther | rfl
      · exact invariant.oneRun first isOld second isOther runId isFirst isSecond
      · rw [proper.noRun] at isSecond
        cases isSecond
    · rw [proper.noRun] at isFirst
      cases isFirst
  · intro bundle bundleMem later member sameId
    rcases (isIn later).mp member with isOld | rfl
    · rw [eq_of_key_eq isOld bundleMem sameId]
      exact ⟨fun _ isChild => isChild, fun _ isKey => isKey⟩
    · exact absurd sameId.symm (isNew bundle bundleMem)

theorem BundlesInvariant.drop {current : BundleRow} {taskId at' : String}
    (stored : store.Stored current)
    (remains : (current.taskIds.filter fun other => other ≠ taskId) ≠ []) :
    BundleMove store (store.updateBundleTasks current.id
      (current.taskIds.filter fun other => other ≠ taskId)
      (current.markers.filter fun entry => entry.1 ≠ taskId) at') := by
  have shrink := @drop_shrink store current taskId at' invariant.proper stored remains
  refine ⟨⟨shrink.proper invariant.proper, invariant.oneRun.mono ?_⟩,
    shrink.onlyLeave invariant.proper⟩
  intro later member
  obtain ⟨bundle, bundleMem, rfl⟩ := Store.mem_updateBundleTasks.mp member
  refine ⟨bundle, bundleMem, ?_⟩
  split
  · exact ⟨rfl, rfl⟩
  · exact ⟨rfl, rfl⟩

theorem BundlesInvariant.delete : BundleMove store (store.deleteBundle id).2 := by
  have shrink := @delete_shrink store id invariant.proper
  refine ⟨⟨shrink.proper invariant.proper, invariant.oneRun.mono ?_⟩,
    shrink.onlyLeave invariant.proper⟩
  exact fun later member => ⟨later, (Store.mem_deleteBundle.mp member).1, rfl, rfl⟩

end

theorem Store.stored_of_find {current : BundleRow}
    (isFound : store.bundles.find? id = some current) : store.Stored current :=
  fun _ member sameId =>
    eq_of_key_eq member (find?_eq_some.mp isFound).1 sameId

/-- What a call under the condition keeps, and what its operation then knows. -/
theorem bundles_call {request : Call} {answer : Except CommanderError (Call.Result request)}
    {later : BundlePhase} {moved : Store}
    (mayCall : writesBundlesApart.mayCall request store others)
    (leads : phase.Leads request answer later)
    (answers : commanderMachine.Answers request store answer moved) (isHeld : phase.Holds store)
    (invariant : BundlesInvariant store) : BundleMove store moved ∧ later.Holds moved := by
  obtain ⟨isExit, isHeld⟩ := isHeld
  cases leads with
  | clock isClock notChecked =>
    rw [show moved = store from store_of_answers answers fun statement isDb => by
      cases isDb
      exact isClock]
    exact ⟨invariant.stays, isExit, isHeld⟩
  | tasks | taken | glimpses | glimpsesOver | looksForReport =>
    rw [(answers_db answers).2]
    exact ⟨invariant.stays, isExit, isHeld⟩
  | lists ids distinct nonempty isFree =>
    obtain ⟨isFound, rfl⟩ := answers_db answers
    refine ⟨invariant.stays, isExit, distinct, nonempty, fun bundle member => ?_⟩
    apply isFree
    rw [show _ = _ from ok.inj isFound]
    exact (mem_insertionSort _).mpr member
  | inserts isRow proper =>
    rw [(answers_db answers).2]
    exact ⟨invariant.insert proper (isRow ▸ isHeld), isExit.insertBundle proper.noRun, trivial⟩
  | reads isId =>
    obtain ⟨isFound, rfl⟩ := answers_db answers
    exact ⟨invariant.stays, isExit, Store.stored_of_find (ok.inj isFound).symm⟩
  | updates isFrom =>
    rw [(answers_db answers).2]
    exact ⟨invariant.update isFrom isHeld mayCall.2, trivial, trivial⟩
  | drops taskId remains =>
    rw [(answers_db answers).2]
    exact ⟨invariant.drop isHeld remains, trivial, trivial⟩
  | deletes =>
    rw [(answers_db answers).2]
    exact ⟨invariant.delete, isExit.deleteBundle, trivial⟩
  | @findsNone runId =>
    obtain ⟨isFound, rfl⟩ := answers_db answers
    refine ⟨invariant.stays, fun bundle member isRun => ?_, trivial⟩
    have notFound := Option.map_eq_none_iff.mp (ok.inj isFound).symm
    have differs := List.find?_eq_none.mp notFound bundle member
    exact absurd (decide_eq_true isRun) differs
  | @finds runId id =>
    obtain ⟨isFound, rfl⟩ := answers_db answers
    refine ⟨invariant.stays, fun bundle member isRun _ => ?_, trivial⟩
    obtain ⟨found, isFirst, isId⟩ := Option.map_eq_some_iff.mp (ok.inj isFound).symm
    have hasRun : found.runId = some runId := by simpa using find?_some isFirst
    rw [← isId]
    exact invariant.oneRun bundle member found (mem_of_find?_eq_some isFirst) runId isRun hasRun
  | @missing runId id | @gone runId checked =>
    obtain ⟨isFound, rfl⟩ := answers_db answers
    refine ⟨invariant.stays, fun bundle member isRun isMerging => ?_, trivial⟩
    have missing := KeyedTable.find?_eq_none.mp (ok.inj isFound).symm
    exact missing bundle member (isExit bundle member isRun isMerging)
  | @settled runId id current isId isSettled =>
    obtain ⟨isFound, rfl⟩ := answers_db answers
    refine ⟨invariant.stays, fun bundle member isRun isMerging => ?_, trivial⟩
    obtain ⟨currentMem, -⟩ := find?_eq_some.mp (ok.inj isFound).symm
    have same := eq_of_key_eq member currentMem
      ((isExit bundle member isRun isMerging).trans isId.symm)
    exact isSettled (same ▸ isMerging)
  | checks isId isMerging =>
    obtain ⟨isFound, rfl⟩ := answers_db answers
    exact ⟨invariant.stays, isExit, Store.stored_of_find (ok.inj isFound).symm, isMerging⟩
  | @rereads runId checked current isId =>
    obtain ⟨isFound, rfl⟩ := answers_db answers
    have isFound := (ok.inj isFound).symm
    obtain ⟨currentMem, -⟩ := find?_eq_some.mp isFound
    obtain rfl := isHeld.1 current currentMem isId
    exact ⟨invariant.stays, isExit, Store.stored_of_find isFound, isHeld.2⟩
  | @fails runId current row isFrom isFailed =>
    rw [(answers_db answers).2]
    refine ⟨invariant.update isFrom isHeld.1 mayCall.2, fun later member isRun => ?_, trivial⟩
    obtain ⟨bundle, bundleMem, rfl⟩ := Store.mem_updateBundle.mp member
    by_cases isRow : bundle.id = row.id
    · rw [if_pos isRow]
      simp [isFailed]
    · rw [if_neg isRow] at isRun ⊢
      intro isMerging
      exact isRow ((isExit bundle bundleMem isRun isMerging).trans isFrom.sameId.symm)
  | thrown =>
    rw [store_of_error answers]
    exact ⟨invariant.stays, isExit, trivial⟩

end Calls

variable {thread : Operation × Prog commanderSignature Unit}

def findingly : (request : Call) → commanderSignature.Answer request
  | .db (.selectBundle id) =>
    .ok (some ⟨id, [], .merging, none, none, none, "", [], none, "", ""⟩)
  | request => calmly request

theorem findingly_possible (request : Call) :
    bundleProtocol.possible request (findingly request) := by
  cases request with
  | db statement =>
    cases statement with
    | selectBundle id =>
      rintro bundle isFound
      cases isFound
      rfl
    | _ => exact trivial
  | _ => exact trivial

variable {request : Call}

theorem findingly_ok {error : CommanderError}
    (isError : findingly request = .error error) : False := by
  cases request with
  | db statement => cases statement <;> cases isError
  | _ => cases isError

theorem not_of_isClock {stops : Call → Prop}
    (isStatement : ∀ request, stops request → ∃ statement, request = .db statement)
    (isClock : request.IsClock) : ¬stops request := by
  intro isStop
  obtain ⟨statement, rfl⟩ := isStatement request isStop
  exact isClock

def BundlePhase.Frees (taskIds : List String) (phase : BundlePhase) : Prop :=
  ∃ ids, phase.held = .free ids ∧ ∃ taskId ∈ taskIds, taskId ∈ ids

def BundlePhase.Rewrites (id : String) (phase : BundlePhase) : Prop :=
  ∃ current : BundleRow, current.id = id ∧
    (phase.held = .read current ∨ phase.held = .fails current)

theorem bundles_of_frees
    (follows : bundleProtocol.Follows phase thread.2) (frees : phase.Frees taskIds) :
    bundles taskIds thread := by
  apply follows.mayReach_of_answer frees _ findingly findingly_possible
  · intro phase request later frees leads
    generalize found : findingly request = answer at leads
    obtain ⟨ids, isFree, taskId, isTask, isIn⟩ := frees
    cases leads with
    | clock isClock =>
      refine .inr ⟨not_of_isClock ?_ isClock, ids, isFree, taskId, isTask, isIn⟩
      intro request lists
      cases request with
      | db statement => exact ⟨statement, rfl⟩
      | _ => exact lists.elim
    | inserts isRow =>
      cases isFree
      exact .inl ⟨taskId, isTask, isRow ▸ isIn⟩
    | thrown => exact (findingly_ok found).elim
    | _ => cases isFree
  · rintro phase ⟨ids, isFree, -⟩ ended
    cases isFree.symm.trans ended

theorem mayReach_of_rewrites {program : Prog commanderSignature Unit}
    (follows : bundleProtocol.Follows phase program) (isAt : phase.Rewrites id) :
    program.MayReach (Call.ReadsBundle id) (Call.WritesBundle id) := by
  apply follows.mayReach_of_answer isAt _ findingly findingly_possible
  · intro phase request later isAt leads
    generalize found : findingly request = answer at leads
    obtain ⟨current, rfl, isRead⟩ := isAt
    cases leads with
    | clock isClock =>
      refine .inr ⟨not_of_isClock ?_ isClock, current, rfl, isRead⟩
      intro request reads
      cases request with
      | db statement => exact ⟨statement, rfl⟩
      | _ => exact reads.elim
    | updates isFrom =>
      rcases isRead with isRead | isRead
      · cases isRead
        exact .inl isFrom.sameId
      · cases isRead
    | drops =>
      rcases isRead with isRead | isRead
      · cases isRead
        exact .inl rfl
      · cases isRead
    | fails isFrom =>
      rcases isRead with isRead | isRead
      · cases isRead
      · cases isRead
        exact .inl isFrom.sameId
    | thrown => exact (findingly_ok found).elim
    | _ => rcases isRead with isRead | isRead <;> cases isRead
  · rintro phase ⟨current, -, isRead⟩ ended
    rcases isRead with isRead | isRead
    · cases isRead.symm.trans ended
    · cases isRead.symm.trans ended

/-- What was read, or found merging, may be written. -/
theorem rewrites_of_held (owned : BundlePhase.Owns thread.1 phase)
    (follows : bundleProtocol.Follows phase thread.2)
    (isHeld : phase.held = .read current ∨ phase.held = .checked current ∨
      phase.held = .fails current) : rewrites current.id thread := by
  rcases isHeld with isRead | isChecked | fails
  · exact .inl (mayReach_of_rewrites follows ⟨current, rfl, .inl isRead⟩)
  · right
    obtain ⟨op, program⟩ := thread
    cases program with
    | done value => cases isChecked.symm.trans follows
    | call request next =>
      obtain ⟨after, leads, rest⟩ := follows (findingly request) (findingly_possible request)
      generalize found : findingly request = answer at leads rest
      cases leads with
      | clock isClock notChecked => exact absurd isChecked (notChecked current)
      | gone => cases found
      | rereads isId =>
        cases isChecked
        have reaches := mayReach_of_rewrites rest ⟨_, isId, .inr rfl⟩
        exact ⟨owned ▸ rfl, _, next, _, rfl, reaches⟩
      | thrown => exact (findingly_ok found).elim
      | _ => cases isChecked
  · exact .inl (mayReach_of_rewrites follows ⟨current, rfl, .inr fails⟩)

theorem hasLookedUp_of_looked {runId : String} (owned : BundlePhase.Owns thread.1 phase)
    (follows : bundleProtocol.Follows phase thread.2)
    (isLooked : phase.exit.looked? = some runId) : hasLookedUp runId thread := by
  constructor
  · rw [← owned]
    cases isExit : phase.exit with
    | no | waits other =>
      rw [isExit] at isLooked
      cases isLooked
    | _ =>
      rw [isExit] at isLooked
      exact isLooked
  · intro next isCall
    rw [isCall] at follows
    obtain ⟨after, leads, -⟩ := follows (.ok none) trivial
    cases leads with
    | clock isClock => exact isClock.elim
    | _ => cases isLooked

theorem bundles_beside {moved : Store} {later bystander : BundlePhase}
    {answer : Except CommanderError (Call.Result request)}
    {others : List (Operation × Prog commanderSignature Unit)}
    (mayCall : writesBundlesApart.mayCall request store others)
    (leads : phase.Leads request answer later)
    (answers : commanderMachine.Answers request store answer moved) (isOwn : phase.Holds store)
    (member : thread ∈ others) (owned : BundlePhase.Owns thread.1 bystander)
    (follows : bundleProtocol.Follows bystander thread.2) (stands : bystander.Holds store) :
    bystander.Holds moved := by
  obtain ⟨isExit, isHeld⟩ := stands
  have update : ∀ row, writesBundlesApart.mayCall (.db (.updateBundle row)) store others →
      bystander.Holds (store.updateBundle row) := by
    rintro row ⟨apart, early⟩
    refine ⟨isExit.updateBundle early fun runId isLooked =>
      ⟨thread, member, hasLookedUp_of_looked owned follows isLooked⟩, isHeld.mono ?_ ?_⟩
    · intro current isRead other otherMem isId
      obtain ⟨bundle, bundleMem, rfl⟩ := Store.mem_updateBundle.mp otherMem
      by_cases isRow : bundle.id = row.id
      · rw [if_pos isRow] at isId
        have rewrites := rewrites_of_held owned follows isRead
        rw [← isId, isRow] at rewrites
        exact absurd rewrites (apart thread member)
      · rw [if_neg isRow]
        exact bundleMem
    · intro taskIds _ other otherMem taskId isChild _
      obtain ⟨bundle, bundleMem, rfl⟩ := Store.mem_updateBundle.mp otherMem
      refine ⟨bundle, bundleMem, ?_⟩
      split at isChild
      · exact isChild
      · exact isChild
  cases leads with
  | inserts isRow proper =>
    rw [(answers_db answers).2]
    refine ⟨isExit.insertBundle proper.noRun, ?_⟩
    rcases store.insertBundle_cases _ with same | ⟨-, isIn⟩
    · change bystander.held.Holds (store.insertBundle _).2
      rw [same]
      exact isHeld
    apply isHeld.mono
    · intro current isRead other otherMem isId
      rcases (isIn other).mp otherMem with isOld | rfl
      · exact isOld
      · have rewrites := rewrites_of_held owned follows isRead
        rw [← isId] at rewrites
        exact absurd rewrites (mayCall thread member).2
    · intro taskIds isFree other otherMem taskId isChild isTask
      rcases (isIn other).mp otherMem with isOld | rfl
      · exact ⟨other, isOld, isChild⟩
      · exact absurd (bundles_of_frees follows ⟨taskIds, isFree, taskId, isChild, isTask⟩)
          (mayCall thread member).1
  | updates | fails =>
    rw [(answers_db answers).2]
    exact update _ mayCall
  | @drops dropped at' _ taskId remains =>
    rw [(answers_db answers).2]
    refine ⟨isExit.updateBundleTasks, isHeld.mono ?_ ?_⟩
    · intro current isRead other otherMem isId
      obtain ⟨bundle, bundleMem, rfl⟩ := Store.mem_updateBundleTasks.mp otherMem
      by_cases isRow : bundle.id = dropped.id
      · rw [if_pos isRow] at isId
        have rewrites := rewrites_of_held owned follows isRead
        rw [← isId, isRow] at rewrites
        exact absurd rewrites (mayCall thread member)
      · rw [if_neg isRow]
        exact bundleMem
    · intro taskIds _ other otherMem child isChild _
      obtain ⟨bundle, bundleMem, rfl⟩ := Store.mem_updateBundleTasks.mp otherMem
      refine ⟨bundle, bundleMem, ?_⟩
      split at isChild
      · rename_i isRow
        obtain rfl := isOwn.held bundle bundleMem isRow
        exact mem_of_mem_filter isChild
      · exact isChild
  | deletes =>
    rw [(answers_db answers).2]
    refine ⟨isExit.deleteBundle, isHeld.mono ?_ ?_⟩
    · exact fun current _ other otherMem _ => (Store.mem_deleteBundle.mp otherMem).1
    · exact fun taskIds _ other otherMem taskId isChild _ =>
        ⟨other, (Store.mem_deleteBundle.mp otherMem).1, isChild⟩
  | clock isClock notChecked =>
    rw [show moved = store from store_of_answers answers fun statement isDb => by
      cases isDb
      exact isClock]
    exact ⟨isExit, isHeld⟩
  | thrown =>
    rw [store_of_error answers]
    exact ⟨isExit, isHeld⟩
  | _ =>
    rw [(answers_db answers).2]
    exact ⟨isExit, isHeld⟩

/-- The operations on bundles keep what is relied on, where they write apart. -/
theorem bundles_guard (runtime : Runtime) :
    bundleProtocol.Guards (commanderSystem runtime Operation.onBundles) writesBundlesApart .first
      BundlePhase.Owns BundlesInvariant fun store phase => phase.Holds store where
  program op running startable := actionOf_bundleFollows startable
  possible := by
    intro request world answer moved answers
    cases request with
    | db statement =>
      cases statement with
      | selectBundle id =>
        rw [(answers_db answers).1]
        exact fun bundle isFound => (find?_eq_some.mp isFound).2
      | _ => exact trivial
    | _ => exact trivial
  ownsFirst op := by
    cases isExit : op.exitOf <;> simp [BundlePhase.Owns, BundlePhase.first, isExit, Exit.runId?]
  ownsLed := by
    intro op phase request answer after leads owned
    cases leads <;> exact owned
  starts op world invariant := by
    refine ⟨?_, trivial⟩
    cases isExit : op.exitOf <;> simp [BundlePhase.first, isExit, Exit.Holds]
  own acts invariant := by
    obtain ⟨move, isAfter⟩ := bundles_call acts.mayCall acts.leads acts.answers acts.isHeld
      invariant
    exact ⟨move.invariant, isAfter⟩
  other acts invariant member owned follows stands :=
    bundles_beside acts.mayCall acts.leads acts.answers acts.isHeld member owned follows stands
  environment := by
    rintro world moved rfl invariant
    exact ⟨invariant, fun phase stands => stands⟩

/-- Where bundles are written apart, no task is in two of them, those with markers are the
children, no child comes back, and no bundle is left merging by the exit of its run. -/
theorem bundlesKeep_ofWritesApart (runtime : Runtime) :
    BundlesKeep writesBundlesApart runtime := by
  intro store proper oneRun
  have guards := bundles_guard runtime
  have initial : BundlesInvariant store := ⟨proper, oneRun⟩
  have attends : ∀ {runId payload watched},
      (commanderSystem runtime Operation.onBundles).WatchedUnder writesBundlesApart store
        (.applyBundleRunEvent runId .exit payload)
        (applyBundleRunEvent runtime.json runId .exit payload).run watched →
      bundleProtocol.Attends BundlePhase.Owns BundlesInvariant
        (fun store phase => phase.Holds store) (.applyBundleRunEvent runId .exit payload)
        (ExitEnds runId) watched := by
    intro runId payload watched run
    have exits := @exit_follows runtime runId payload
    unfold Follows at exits
    have follows : bundleProtocol.FollowsTo (.first (.applyBundleRunEvent runId .exit payload))
        (applyBundleRunEvent runtime.json runId .exit payload).run (ExitEnds runId) := exits
    apply guards.watched _ initial follows run
    rintro (thrown | ⟨⟩) after ended
    · exact ended
    · exact ended ▸ rfl
  constructor
  · exact fun config run => (guards.reached initial run).1.proper
  · intro config after run step
    obtain ⟨invariant, stand⟩ := guards.reached initial run
    cases step with
    | start op startable | stop thread mayStop => exact invariant.stays.onlyLeave
    | call op request next answer moved mayCall answers =>
      obtain ⟨phase, owned, follows, isHeld⟩ :=
        stand (op, .call request next) (mem_append_right _ (.head _))
      obtain ⟨later, leads, -⟩ := follows answer (guards.possible answers)
      exact (bundles_call mayCall leads answers isHeld invariant).1.onlyLeave
    | environment moves =>
      obtain rfl : _ = _ := moves
      exact invariant.stays.onlyLeave
  · intro runId payload watched row next run isUpdate bundle member isId
    obtain ⟨-, -, phase, owned, isAt, stands⟩ := attends run
    rw [isUpdate] at isAt
    obtain ⟨after, leads, -⟩ := isAt (.ok ()) trivial
    cases leads with
    | clock isClock => exact isClock.elim
    | updates => cases owned
    | fails isFrom isFailed =>
      obtain ⟨stored, isMerging⟩ := stands.held
      rw [stored bundle member (isId.trans isFrom.sameId)]
      exact isMerging
  · intro runId payload watched run isDone bundle member isRun
    obtain ⟨-, -, phase, owned, isAt, stands⟩ := attends run
    rw [isDone] at isAt
    obtain rfl : phase = ⟨.finished runId, .nothing⟩ := isAt
    exact stands.exit bundle member isRun

def twoTasks : Store where
  features := .empty
  transitions := .empty
  tasks := (KeyedTable.empty.insertOrIgnore ⟨"first", none, none, none, none, "0"⟩).insertOrIgnore
    ⟨"second", none, none, none, none, "0"⟩
  runs := .empty
  runEvents := .empty
  bundles := .empty

def bundledTwice : List (Move commanderSignature Store Operation) :=
  List.replicate 2 (.start (.createBundle ["first", "second"])) ++
    List.replicate 2 (.call 0 (numbered 1)) ++ List.replicate 5 (.call 1 (numbered 2)) ++
    List.replicate 3 (.call 0 (numbered 1))

/-- A task is put in two bundles that are created at once. -/
theorem not_bundlesKeep : ¬BundlesKeep anyStep plainRuntime := by
  intro claimed
  obtain ⟨config, reached, isTwice⟩ :=
    (commanderReferee plainRuntime Operation.onBundles).exists_reachable_of_play bundledTwice
      twoTasks
      (fun store => store.bundles.rows.any fun one => store.bundles.rows.any fun other =>
        one.id ≠ other.id && one.taskIds.contains "first" && other.taskIds.contains "first")
      (by simp [bundledTwice]) (by decide +kernel)
  have kept := claimed twoTasks ⟨forall_mem_nil _, forall_mem_nil _, forall_mem_nil _,
      forall_mem_nil _⟩
    (forall_mem_nil _)
  have proper := kept.proper config (reachableUnder_anyStep reached)
  obtain ⟨one, oneMem, isTwice⟩ := any_eq_true.mp isTwice
  obtain ⟨other, otherMem, isTwice⟩ := any_eq_true.mp isTwice
  simp only [Bool.and_eq_true, decide_eq_true_eq, contains_eq_mem] at isTwice
  exact proper.apart one oneMem other otherMem isTwice.1.1 "first" isTwice.1.2 isTwice.2

end DubEcosystem.Commander
