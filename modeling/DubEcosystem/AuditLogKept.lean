import DubEcosystem.AuditLogArchive
import Mathlib.Data.List.Dedup

/-!
# audit-log: when no record is lost

A run rewrites the objects of the months that it selects from, and deletes what is older than its
cutoff.  Nothing is lost as long as what is overwritten is written again or is not yet deleted,
and nothing older than the cutoff comes in between the select and the delete.
-/

namespace DubEcosystem.AuditLog

open Interleaving List KeyedTable

variable {host : Host}

/-- Among texts of `toISOString` the text sorts as its instant does. -/
def SortsAsInstant (host : Host) (text : String) : Prop :=
  ∀ time, host.parseDate text = some time → ∀ instant, text < host.toISOString instant →
    time < instant

def Call.isSelect : Call → Prop
  | .selectBefore _ => True
  | _ => False

def Call.isDelete : Call → Prop
  | .deleteBefore _ _ _ => True
  | _ => False

def isArchiving (program : Program Unit) : Prop :=
  program.MayReach (S := calls) Call.isSelect Call.isDelete

/-- Each line of the object that is replaced is written again, or is a row yet, where no other
run is between its select and its delete.  A delete takes what its run has selected.  The texts
of the instants sort as the instants do. -/
def replacesNothingGone (host : Host) : RunCondition calls World Operation where
  mayCall
    | .insert row, _, _ => SortsAsInstant host row.occurredAt
    | .put key lines, world, others => ∀ old, world.objects key = some old → old ⊆ lines ∨
          (∀ record ∈ old, record ∈ lines ∨ ∃ row ∈ world.rows, rowToRecord row = record) ∧
            ∀ other ∈ others, ¬isArchiving other.2
    | .deleteBefore _ selected cutoffIso, world, _ =>
      ∀ row ∈ world.rows, row.occurredAt < cutoffIso → rowToRecord row ∈ selected
    | _, _, _ => True
  mayStop _ := True

inductive Phase where
  | inserting
  | starting (now : Int)
  /-- What was selected, and the months that were put since. -/
  | writing (now : Int) (selected : List AuditRecord) (written : List String)
  | ended

inductive Leads (host : Host) : Phase → (request : Call) → Answer request → Phase → Prop
  | nowIso {answer} : Leads host .inserting .nowIso answer .inserting
  | inserts {row} : Leads host .inserting (.insert row) () .ended
  | selects {now} {records : List AuditRecord} :
      Leads host (.starting now) (.selectBefore (retentionCutoffIso host now)) records
        (.writing now records [])
  | findsNone {now} :
      Leads host (.starting now) (.selectBefore (retentionCutoffIso host now)) [] .ended
  | puts {now selected written m} :
      Leads host (.writing now selected written) (.put (objectKey m) (byMonth selected m)) ()
        (.writing now selected (m :: written))
  | deletes {now selected written deleted}
      (complete : ∀ record ∈ selected, monthKey record.occurredAt ∈ written) :
      Leads host (.writing now selected written)
        (.deleteBefore now selected (retentionCutoffIso host now)) deleted .ended

def archiveProtocol (host : Host) : Protocol calls Phase where
  possible _ _ := True
  leads := Leads host
  final phase := phase = .ended

def Operation.first : Operation → Phase
  | .insertRecord _ _ => .inserting
  | .archiveOldRecords now => .starting now

/-- Whose phase it is says nothing. -/
def anyOwner (_ : Operation) (_ : Phase) : Prop :=
  True

variable {records : List AuditRecord}

theorem mem_monthsOf {m : String} :
    m ∈ monthsOf records ↔ ∃ record ∈ records, monthKey record.occurredAt = m := by
  rw [monthsOf, mem_mergeSort, mem_dedup, List.mem_map]

variable {written : List String}

theorem putMonths_follows {now : Int} (months : List String) {post : Unit → Phase → Prop}
    (ends : ∀ last, (∀ m ∈ months, m ∈ last) → written ⊆ last →
      post () (.writing now records last)) :
    (archiveProtocol host).FollowsTo (.writing now records written) (putMonths records months)
      post := by
  induction months generalizing written with
  | nil => exact ends written (by simp) (List.Subset.refl written)
  | cons m months ih =>
    intro _ _
    refine ⟨_, .puts, ih fun last isWritten extends_ => ?_⟩
    apply ends last
    · exact forall_mem_cons.mpr ⟨extends_ (.head _), isWritten⟩
    · exact fun month member => extends_ (mem_cons_of_mem m member)

theorem program_follows (op : Operation) :
    (archiveProtocol host).Follows op.first (op.program host) := by
  cases op with
  | insertRecord id input =>
    intro recordedAt _
    refine ⟨.inserting, .nowIso, fun _ _ => ⟨.ended, .inserts, ?_⟩⟩
    rfl
  | archiveOldRecords now =>
    intro records _
    cases records with
    | nil => exact ⟨.ended, .findsNone, rfl⟩
    | cons record rest =>
      refine ⟨.writing now (record :: rest) [], .selects, ?_⟩
      apply Protocol.followsTo_bind
      simp only [Prog.bind, length_cons, Nat.succ_ne_zero, if_false]
      apply Protocol.followsTo_bind
      apply putMonths_follows
      intro last isWritten _ deleted _
      refine ⟨.ended, .deletes fun other member => ?_, rfl⟩
      exact isWritten _ (mem_monthsOf.mpr ⟨other, member, rfl⟩)

variable {selected : List AuditRecord}

theorem isArchiving_of_writing {now : Int} {program : Program Unit}
    (follows : (archiveProtocol host).Follows (.writing now selected written) program) :
    isArchiving program := by
  have answered : ∀ request, ∃ answer, (archiveProtocol host).possible request answer := by
    intro request
    cases request with
    | nowIso => exact ⟨"", trivial⟩
    | insert row | put key lines => exact ⟨(), trivial⟩
    | selectBefore cutoffIso => exact ⟨[], trivial⟩
    | deleteBefore now selected cutoffIso => exact ⟨none, trivial⟩
  apply @Protocol.Follows.mayReach _ _ _ _ _ _ _ (fun phase => ∃ now selected written,
    phase = .writing now selected written) _ follows ⟨now, selected, written, rfl⟩ _ answered
  · rintro _ request answer after ⟨now, selected, written, rfl⟩ _ leads
    cases leads with
    | puts => exact .inr ⟨fun isSelect => isSelect, _, _, _, rfl⟩
    | deletes => exact .inl trivial
  · rintro _ ⟨now, selected, written, rfl⟩ isFinal
    cases isFinal

def World.Archives (world : World) (record : AuditRecord) : Prop :=
  ∃ lines, world.objects (objectKey (monthKey record.occurredAt)) = some lines ∧ record ∈ lines

/-- Nothing that was inserted is lost, nothing else is there, and the rows sort. -/
structure World.Sound (host : Host) (world : World) : Prop where
  kept : ∀ record ∈ world.inserted, world.Keeps record
  rows : ∀ row ∈ world.rows, rowToRecord row ∈ world.inserted
  lines : ∀ key old, world.objects key = some old → ∀ record ∈ old, record ∈ world.inserted
  sorts : ∀ row ∈ world.rows, SortsAsInstant host row.occurredAt

/-- What a run has selected was inserted, and is archived in the months that it has put. -/
def World.holds (world : World) : Phase → Prop
  | .writing _ selected written => ∀ record ∈ selected, record ∈ world.inserted ∧
      (monthKey record.occurredAt ∈ written → world.Archives record)
  | _ => True

theorem objectKey_injective {first second : String} (same : objectKey first = objectKey second) :
    first = second := by
  have lists := congrArg String.toList same
  simp only [objectKey, String.toList_append, append_assoc] at lists
  exact String.ext (by simpa using lists)

variable {world : World}

theorem World.Sound.keeps_iff (sound : world.Sound host) (record : AuditRecord) :
    world.Keeps record ↔ record ∈ world.inserted := by
  constructor
  · rintro (⟨row, member, rfl⟩ | ⟨lines, isObject, member⟩)
    · exact sound.rows row member
    · exact sound.lines _ lines isObject record member
  · exact sound.kept record

variable {record : AuditRecord} {lines : List AuditRecord}

theorem World.Archives.put {key : String} (archives : world.Archives record)
    (again : key = objectKey (monthKey record.occurredAt) → record ∈ lines) :
    (world.put key lines).Archives record := by
  by_cases isKey : objectKey (monthKey record.occurredAt) = key
  · exact ⟨lines, by rw [isKey, World.objects_put_self], again isKey.symm⟩
  · obtain ⟨old, isObject, member⟩ := archives
    exact ⟨old, by rw [World.objects_put_of_ne _ _ isKey, isObject], member⟩

theorem World.Archives.of_put (member : record ∈ selected) :
    (world.put (objectKey (monthKey record.occurredAt))
      (byMonth selected (monthKey record.occurredAt))).Archives record :=
  ⟨_, World.objects_put_self .., by simp [byMonth, member]⟩

variable {row : AuditRow}

theorem World.Sound.insert (sound : world.Sound host) (sorts : SortsAsInstant host row.occurredAt) :
    (world.insert row).Sound host ∧ world.inserted ⊆ (world.insert row).inserted ∧
      (world.insert row).objects = world.objects := by
  unfold World.insert
  cases isNew : world.rows.insert? row with
  | none => exact ⟨sound, List.Subset.refl _, rfl⟩
  | some rows =>
    have isRow : ∀ other, other ∈ rows ↔ other ∈ world.rows ∨ other = row :=
      fun other => mem_insert? isNew
    refine ⟨⟨?_, ?_, ?_, ?_⟩, subset_cons_self _ _, rfl⟩
    · intro record member
      rcases mem_cons.mp member with rfl | old
      · exact .inl ⟨row, (isRow row).mpr (.inr rfl), rfl⟩
      · rcases sound.kept record old with ⟨other, stored, isRecord⟩ | archived
        · exact .inl ⟨other, (isRow other).mpr (.inl stored), isRecord⟩
        · exact .inr archived
    · intro other stored
      rcases (isRow other).mp stored with old | rfl
      · exact .tail _ (sound.rows other old)
      · exact .head _
    · exact fun key old isObject record member =>
        mem_cons_of_mem _ (sound.lines key old isObject record member)
    · intro other stored
      rcases (isRow other).mp stored with old | rfl
      · exact sound.sorts other old
      · exact sorts

theorem World.Sound.put {key : String}
    (sound : world.Sound host) (known : ∀ record ∈ lines, record ∈ world.inserted)
    (spares : ∀ old, world.objects key = some old → ∀ record ∈ old,
      record ∈ lines ∨ ∃ row ∈ world.rows, rowToRecord row = record) :
    (world.put key lines).Sound host where
  kept := by
    intro record member
    rcases sound.kept record member with stored | archived
    · exact .inl stored
    · by_cases isKey : objectKey (monthKey record.occurredAt) = key
      · obtain ⟨old, isObject, isLine⟩ := archived
        rcases spares old (isKey ▸ isObject) record isLine with again | stored
        · exact .inr (World.Archives.put ⟨old, isObject, isLine⟩ fun _ => again)
        · exact .inl stored
      · exact .inr (World.Archives.put archived fun same => absurd same.symm isKey)
  rows := sound.rows
  lines := by
    intro other old isObject record member
    by_cases isKey : other = key
    · subst isKey
      rw [World.objects_put_self] at isObject
      cases isObject
      exact known record member
    · rw [World.objects_put_of_ne _ _ isKey] at isObject
      exact sound.lines other old isObject record member
  sorts := sound.sorts

variable {cutoffIso : String}

theorem World.mem_deleteBefore
    (stored : row ∈ world.rows) (notOlder : ¬row.occurredAt < cutoffIso) :
    row ∈ (world.deleteBefore host cutoffIso).2.rows := by
  unfold World.deleteBefore
  split
  · exact stored
  · exact mem_deleteWhere.mpr ⟨stored, by simpa using notOlder⟩

theorem World.deleteBefore_subset
    (stored : row ∈ (world.deleteBefore host cutoffIso).2.rows) : row ∈ world.rows := by
  unfold World.deleteBefore at stored
  split at stored
  · exact stored
  · exact (mem_deleteWhere.mp stored).1

theorem World.deleteBefore_same (world : World) (host : Host) (cutoffIso : String) :
    (world.deleteBefore host cutoffIso).2.inserted = world.inserted ∧
      (world.deleteBefore host cutoffIso).2.objects = world.objects := by
  unfold World.deleteBefore
  split <;> exact ⟨rfl, rfl⟩

theorem World.Sound.deleteBefore (sound : world.Sound host)
    (archived : ∀ row ∈ world.rows, row.occurredAt < cutoffIso → world.Archives (rowToRecord row)) :
    (world.deleteBefore host cutoffIso).2.Sound host := by
  obtain ⟨sameInserted, sameObjects⟩ := world.deleteBefore_same host cutoffIso
  constructor
  · intro record member
    rw [sameInserted] at member
    have stays : world.Archives record → (world.deleteBefore host cutoffIso).2.Keeps record := by
      rintro ⟨lines, isObject, isLine⟩
      exact .inr ⟨lines, by rw [sameObjects, isObject], isLine⟩
    rcases sound.kept record member with ⟨row, stored, rfl⟩ | isArchived
    · by_cases older : row.occurredAt < cutoffIso
      · exact stays (archived row stored older)
      · exact .inl ⟨row, World.mem_deleteBefore stored older, rfl⟩
    · exact stays isArchived
  · intro row stored
    rw [sameInserted]
    exact sound.rows row (World.deleteBefore_subset stored)
  · intro key old isObject record member
    rw [sameInserted]
    rw [sameObjects] at isObject
    exact sound.lines key old isObject record member
  · exact fun row stored => sound.sorts row (World.deleteBefore_subset stored)

/-- What is relied on stays where what was inserted stays, and archived lines too. -/
theorem World.holds.mono {before after : World} {phase : Phase} (holds : before.holds phase)
    (inserted : before.inserted ⊆ after.inserted)
    (archives : ∀ now selected written, phase = .writing now selected written →
      ∀ record ∈ selected, before.Archives record → after.Archives record) :
    after.holds phase := by
  cases phase with
  | writing now selected written =>
    intro record member
    obtain ⟨isInserted, isArchived⟩ := holds record member
    exact ⟨inserted isInserted, fun isWritten =>
      archives now selected written rfl record member (isArchived isWritten)⟩
  | _ => trivial

theorem guards (host : Host) : (archiveProtocol host).Guards (auditLog host)
    (replacesNothingGone host) Operation.first anyOwner (World.Sound host) World.holds where
  program op _ _ := program_follows op
  possible _ := trivial
  ownsFirst _ := trivial
  ownsLed _ _ := trivial
  starts op world _ := by cases op <;> trivial
  own := by
    intro others op request answer world moved phase after acts sound
    obtain ⟨permitted, answers, leads, -, holds, -⟩ := acts
    cases leads with
    | nowIso =>
      obtain rfl : moved = world := answers
      exact ⟨sound, trivial⟩
    | inserts =>
      cases answers
      exact ⟨(sound.insert permitted).1, trivial⟩
    | selects =>
      obtain ⟨isSelected, rfl⟩ := Prod.mk.inj answers
      refine ⟨sound, fun record member => ⟨?_, by simp⟩⟩
      subst isSelected
      obtain ⟨row, stored, rfl⟩ := List.mem_map.mp member
      exact sound.rows row (mem_filter.mp (mem_mergeSort.mp stored)).1
    | findsNone =>
      obtain ⟨-, rfl⟩ := Prod.mk.inj answers
      exact ⟨sound, trivial⟩
    | @puts now selected written m =>
      cases answers
      have known : ∀ record ∈ byMonth selected m, record ∈ world.inserted :=
        fun record member => (holds record (mem_filter.mp member).1).1
      refine ⟨sound.put known fun old isObject record member => ?_, fun record member => ?_⟩
      · rcases permitted old isObject with again | ⟨spared, -⟩
        · exact .inl (again member)
        · exact spared record member
      · obtain ⟨isInserted, isArchived⟩ := holds record member
        refine ⟨isInserted, fun isWritten => ?_⟩
        by_cases isMonth : monthKey record.occurredAt = m
        · subst isMonth
          exact .of_put member
        · have earlier := (mem_cons.mp isWritten).resolve_left isMonth
          exact (isArchived earlier).put fun same => absurd (objectKey_injective same).symm isMonth
    | @deletes now selected written deleted complete =>
      obtain rfl : (world.deleteBefore host (retentionCutoffIso host now)).2 = moved :=
        congrArg Prod.snd answers
      refine ⟨sound.deleteBefore fun row stored older => ?_, trivial⟩
      have isSelected := permitted row stored older
      exact (holds _ isSelected).2 (complete _ isSelected)
  other := by
    intro others op request answer world moved phase after thread bystander acts sound member _
      follows stands
    obtain ⟨permitted, answers, leads, -, -, -⟩ := acts
    cases leads with
    | nowIso =>
      obtain rfl : moved = world := answers
      exact stands
    | inserts =>
      cases answers
      obtain ⟨-, grows, sameObjects⟩ := sound.insert permitted
      apply stands.mono grows
      rintro _ _ _ _ record _ ⟨lines, isObject, isLine⟩
      exact ⟨lines, by rw [sameObjects, isObject], isLine⟩
    | selects | findsNone =>
      obtain ⟨-, rfl⟩ := Prod.mk.inj answers
      exact stands
    | @puts now selected written m =>
      obtain rfl : world.put (objectKey m) (byMonth selected m) = moved := congrArg Prod.snd answers
      have same : world.inserted ⊆ (world.put (objectKey m) (byMonth selected m)).inserted :=
        List.Subset.refl _
      apply stands.mono same
      rintro itsNow itsSelected itsWritten rfl record _ ⟨old, isObject, isLine⟩
      refine World.Archives.put ⟨old, isObject, isLine⟩ fun same => ?_
      rw [← same] at isObject
      rcases permitted old isObject with again | ⟨-, alone⟩
      · exact again isLine
      · exact absurd (isArchiving_of_writing follows) (alone thread member)
    | @deletes now =>
      obtain rfl : (world.deleteBefore host (retentionCutoffIso host now)).2 = moved :=
        congrArg Prod.snd answers
      obtain ⟨sameInserted, sameObjects⟩ :=
        world.deleteBefore_same host (retentionCutoffIso host now)
      apply stands.mono (by rw [sameInserted]; exact List.Subset.refl _)
      rintro _ _ _ _ record _ ⟨lines, isObject, isLine⟩
      exact ⟨lines, by rw [sameObjects, isObject], isLine⟩
  environment := by
    rintro world _ ⟨clock, rfl⟩ sound
    refine ⟨⟨sound.kept, sound.rows, sound.lines, sound.sorts⟩, fun phase holds => ?_⟩
    exact holds.mono (List.Subset.refl _) fun _ _ _ _ _ _ archives => archives

theorem sound_empty (clock : Int) : (World.empty clock).Sound host where
  kept record member := absurd member not_mem_nil
  rows row member := absurd member (notMem_empty row)
  lines key old isObject := by cases isObject
  sorts row member := absurd member (notMem_empty row)

/-- As long as what is overwritten is written again or not yet deleted, and nothing older comes in
between, no record is lost and none inside the window is deleted. -/
theorem keepsRecords_of_replacesNothingGone (host : Host) :
    KeepsRecords replacesNothingGone host := by
  intro clock config reached
  obtain ⟨sound, stand⟩ := (guards host).reached (sound_empty clock) reached
  refine ⟨sound.keeps_iff, ?_⟩
  rintro now selected cutoffIso deleted after call row stored isGone ⟨time, isTime, inside⟩
  cases call with
  | @call world front back op next moved permitted answers =>
    obtain ⟨phase, -, follows, -⟩ := stand (op, .call _ next) (mem_append_right _ (.head _))
    obtain ⟨later, leads, -⟩ := follows deleted trivial
    obtain rfl : (world.deleteBefore host cutoffIso).2 = moved := congrArg Prod.snd answers
    have older : row.occurredAt < cutoffIso := by
      by_contra notOlder
      exact isGone (World.mem_deleteBefore stored notOlder)
    cases leads with
    | deletes =>
      have before := sound.sorts row stored time isTime _ older
      omega

/-- The runtime on the instants below: two runs, twelve seconds into June and July of 2026. -/
def runtime : Host where
  parseDate text :=
    [("2026-03-01T00:00:05.000Z", 1772323205000), ("2026-03-15T09:00:00.000Z", 1773565200000)].lookup
      text
  toISOString instant :=
    if instant = 1772323212000 then "2026-03-01T00:00:12.000Z" else "2026-04-01T00:00:12.000Z"
  monthsBefore _ now := if now = 1780272012000 then 1772323212000 else 1775001612000

def signIn (occurredAt : String) : AuditRecordInput where
  action := "auth.login"
  actorId := some "u"
  orgId := "o"
  result := .success
  resourceType := none
  resourceId := none
  requestId := "r"
  occurredAt := occurredAt
  details := none

def earlyMarch : AuditRecord :=
  rowToRecord (rowOf "1" (signIn "2026-03-01T00:00:05.000Z") "2026-03-01T00:00:06.000Z")

/-- Two records of March; the run of June selects the first, and the run of July the second. -/
def twoRuns : List (Move calls World Operation) :=
  let stamp : (request : Call) → Answer request := fun
    | .nowIso => "2026-03-01T00:00:06.000Z"
    | .insert _ => ()
    | .selectBefore _ => []
    | .put _ _ => ()
    | .deleteBefore _ _ _ => none
  [.start (.insertRecord "1" (signIn "2026-03-01T00:00:05.000Z")), .call 0 stamp, .call 0 stamp,
    .start (.insertRecord "2" (signIn "2026-03-15T09:00:00.000Z")), .call 0 stamp, .call 0 stamp,
    .start (.archiveOldRecords 1780272012000), .call 0 stamp, .call 0 stamp, .call 0 stamp,
    .environment fun world => { world with clock := 1782864012000 },
    .start (.archiveOldRecords 1782864012000), .call 0 stamp, .call 0 stamp, .call 0 stamp]

/-- The second run puts the object of March anew, without the record of the first. -/
theorem not_keepsRecords : ¬KeepsRecords (fun _ => anyStep) runtime := by
  intro keeps
  obtain ⟨config, reached, left⟩ :=
    (openReferee (auditLog runtime) fun _ _ => trivial).exists_reachable_of_play twoRuns
      (.empty 1780272012000)
      (fun world => decide (earlyMarch ∈ world.inserted ∧ world.rows.rows = [] ∧
        ∀ lines ∈ world.objects (objectKey (monthKey earlyMarch.occurredAt)), earlyMarch ∉ lines))
      (by
        intro moved member world
        simp only [twoRuns, mem_cons, not_mem_nil, reduceCtorEq, false_or, or_false,
          Move.environment.injEq] at member
        subst member
        exact ⟨_, rfl⟩)
      (by decide +kernel)
  obtain ⟨isInserted, noRows, notArchived⟩ := of_decide_eq_true left
  obtain ⟨kept, -⟩ := keeps _ config (reachableUnder_anyStep reached)
  rcases (kept earlyMarch).mpr isInserted with ⟨row, stored, -⟩ | ⟨lines, isObject, member⟩
  · rw [mem_def, noRows] at stored
    exact absurd stored not_mem_nil
  · exact notArchived lines (Option.mem_def.mpr isObject) member

end DubEcosystem.AuditLog
