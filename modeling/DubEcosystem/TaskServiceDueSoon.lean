import DubEcosystem.TaskServiceStatements
import DubEcosystem.Texts
import Mathlib.Logic.Relation

/-!
# task-service: tasks that are due soon

`scanDueSoon` of `repo.ts` selects rows by the texts of their due dates, and a batch marks
them after that.
-/

namespace DubEcosystem.TaskService

open KeyedTable List Texts

variable {Id : Type}

/-- The rows of which the scan looks at the due date. -/
def TaskRow.awaits (row : TaskRow Id) : Bool :=
  row.archivedAt.isNone && row.dueSoonNotifiedAt.isNone && row.status ∉ [.done, .cancelled]

/-- The `SELECT` of `scanDueSoon`. -/
def dueSoonRows (rows : List (TaskRow Id)) (nowMs windowMs : Int) : List (TaskRow Id) :=
  let windowEnd := toISOString (nowMs + windowMs)
  let nowIsoStr := toISOString nowMs
  rows.filter fun row => row.awaits && row.dueAt.any fun due => nowIsoStr ≤ due ∧ due ≤ windowEnd

def setDueSoon (rows : TaskTable Id) (selected : TaskRow Id → Bool) (mark : Option String) :
    TaskTable Id :=
  rows.update selected (fun row => { row with dueSoonNotifiedAt := mark }) fun _ => rfl

variable (parse : String → Option Int) (rows : List (TaskRow Id))

/-- Every scan selects the rows that wait and whose due instant lies in its window. -/
def SelectsExactly : Prop :=
  ∀ nowMs windowMs, HasFourDigits nowMs → HasFourDigits (nowMs + windowMs) → 0 ≤ windowMs →
    ∀ row ∈ rows, row ∈ dueSoonRows rows nowMs windowMs ↔ row.awaits = true ∧
      ∃ due ∈ row.dueAt, ∃ time, parse due = some time ∧ nowMs ≤ time ∧ time ≤ nowMs + windowMs

/-- The text is as `toISOString` writes its instant, or has none and no window reaches it. -/
def SortsByTime (due : String) : Prop :=
  (∃ time, HasFourDigits time ∧ parse due = some time ∧ due = toISOString time) ∨
    (∀ time, parse due = some time → ¬HasFourDigits time) ∧
      ∀ first last, HasFourDigits first → HasFourDigits last → first ≤ last →
        ¬(toISOString first ≤ due ∧ due ≤ toISOString last)

theorem toISOString_le {first second : Int} (inside : HasFourDigits first)
    (alsoInside : HasFourDigits second) : toISOString first ≤ toISOString second ↔ first ≤ second := by
  constructor
  · intro le
    by_contra later
    exact (toISOString_lt alsoInside inside (lt_of_not_ge later)).not_ge le
  · intro le
    rcases le.lt_or_eq with less | rfl
    · exact (toISOString_lt inside alsoInside less).le
    · exact le_rfl

variable {parse rows}

theorem mem_dueSoonRows {row : TaskRow Id} {nowMs windowMs : Int} :
    row ∈ dueSoonRows rows nowMs windowMs ↔ row ∈ rows ∧ row.awaits = true ∧ ∃ due ∈ row.dueAt,
      toISOString nowMs ≤ due ∧ due ≤ toISOString (nowMs + windowMs) := by
  simp [dueSoonRows, Option.any_eq_true]

theorem sortsByTime_of_selectsExactly (exact : SelectsExactly parse rows) {row : TaskRow Id}
    (member : row ∈ rows) (awaits : row.awaits = true) {due : String} (isDue : due ∈ row.dueAt) :
    SortsByTime parse due := by
  by_cases reads : ∃ time, parse due = some time ∧ HasFourDigits time
  · obtain ⟨time, isTime, inside⟩ := reads
    have selected := (exact time 0 inside (by simpa using inside) le_rfl row member).mpr
      ⟨awaits, due, isDue, time, isTime, le_rfl, by omega⟩
    obtain ⟨-, -, _, isSome, from_le, le_to⟩ := mem_dueSoonRows.mp selected
    obtain rfl := Option.mem_unique isDue isSome
    rw [add_zero] at le_to
    exact .inl ⟨time, inside, isTime, le_antisymm le_to from_le⟩
  · push Not at reads
    refine .inr ⟨reads, fun first last inside alsoInside le within => ?_⟩
    have isLast : first + (last - first) = last := by omega
    have selected := mem_dueSoonRows.mpr ⟨member, awaits, due, isDue, isLast.symm ▸ within⟩
    obtain ⟨-, _, isSome, time, isTime, from_le, le_to⟩ := (exact first (last - first) inside
      (isLast.symm ▸ alsoInside) (by omega) row member).mp selected
    obtain rfl := Option.mem_unique isDue isSome
    exact reads time isTime (inside.of_le alsoInside from_le (isLast ▸ le_to))

theorem selectsExactly_of_sortsByTime (sorts : ∀ row ∈ rows, row.awaits = true →
      ∀ due ∈ row.dueAt, SortsByTime parse due) : SelectsExactly parse rows := by
  intro nowMs windowMs inside alsoInside positive row member
  rw [mem_dueSoonRows]
  constructor
  · rintro ⟨-, awaits, due, isDue, within⟩
    refine ⟨awaits, due, isDue, ?_⟩
    rcases sorts row member awaits due isDue with ⟨time, isInside, isTime, rfl⟩ | ⟨-, outside⟩
    · rw [toISOString_le inside isInside, toISOString_le isInside alsoInside] at within
      exact ⟨time, isTime, within⟩
    · exact absurd within (outside _ _ inside alsoInside (by omega))
  · rintro ⟨awaits, due, isDue, time, isTime, from_le, le_to⟩
    refine ⟨member, awaits, due, isDue, ?_⟩
    have isInside := inside.of_le alsoInside from_le le_to
    rcases sorts row member awaits due isDue with ⟨_, -, isSome, rfl⟩ | ⟨unread, -⟩
    · obtain rfl := Option.some.inj (isTime.symm.trans isSome)
      rw [toISOString_le inside isInside, toISOString_le isInside alsoInside]
      exact ⟨from_le, le_to⟩
    · exact absurd isInside (unread time isTime)

/-- The table, what the scans between the select and the batch have selected, and the tasks returned
by scans since their marks were last cleared. -/
structure Scanning (Id : Type) where
  rows : TaskTable Id
  scans : List (List Id)
  returned : List Id

/-- No task that a scan selects is already held by a scan that has not marked it. -/
def Scanning.Apart (world : Scanning Id) (nowMs windowMs : Int) : Prop :=
  ∀ row ∈ dueSoonRows world.rows.rows nowMs windowMs, ∀ scan ∈ world.scans, row.id ∉ scan

theorem mem_setDueSoon {rows : TaskTable Id} {selected : TaskRow Id → Bool} {mark : Option String}
    {row : TaskRow Id} : row ∈ setDueSoon rows selected mark ↔ ∃ old ∈ rows,
      (if selected old then { old with dueSoonNotifiedAt := mark } else old) = row :=
  mem_update

variable [DecidableEq Id]

inductive ScanStep (allowed : Scanning Id → Int → Int → Prop) : Scanning Id → Scanning Id → Prop
  | selects {world nowMs windowMs} (isAllowed : allowed world nowMs windowMs) :
    ScanStep allowed world { world with
      scans := (dueSoonRows world.rows.rows nowMs windowMs).map (·.id) :: world.scans }
  | marks {rows front scan back returned} (now : String) :
    ScanStep allowed ⟨rows, front ++ scan :: back, returned⟩
      ⟨setDueSoon rows (fun row => row.id ∈ scan ∧ row.dueSoonNotifiedAt = none) (some now),
        front ++ back, scan ++ returned⟩
  /-- The batch fails, and nothing is returned. -/
  | fails {rows front scan back returned} :
    ScanStep allowed ⟨rows, front ++ scan :: back, returned⟩ ⟨rows, front ++ back, returned⟩
  /-- Any change that leaves the marks; a new task has a new id. -/
  | edits {world : Scanning Id} {rows} (kept : ∀ row ∈ rows, row.id ∉ world.returned ∨
      ∃ old ∈ world.rows, old.id = row.id ∧ old.dueSoonNotifiedAt = row.dueSoonNotifiedAt) :
    ScanStep allowed world { world with rows := rows }
  | clears {world : Scanning Id} (id : Id) :
    ScanStep allowed world { world with
      rows := setDueSoon world.rows (fun row => row.id = id) none
      returned := world.returned.filter (· ≠ id) }

/-- No task is held twice, and those returned are marked. -/
structure Scanning.Sound (world : Scanning Id) : Prop where
  once : (world.scans.flatten ++ world.returned).Nodup
  marked : ∀ row ∈ world.rows, row.id ∈ world.returned → row.dueSoonNotifiedAt.isSome

omit [DecidableEq Id] in
theorem Scanning.Sound.selects {world : Scanning Id} (sound : world.Sound) {nowMs windowMs : Int}
    (apart : world.Apart nowMs windowMs) : Scanning.Sound { world with
      scans := (dueSoonRows world.rows.rows nowMs windowMs).map (·.id) :: world.scans } where
  once := by
    have ids : ((dueSoonRows world.rows.rows nowMs windowMs).map (·.id)).Nodup :=
      world.rows.keysNodup.sublist (filter_sublist.map _)
    rw [flatten_cons, append_assoc]
    refine ids.append sound.once ?_
    rintro id isSelected isHeld
    obtain ⟨row, selected, rfl⟩ := List.mem_map.mp isSelected
    obtain ⟨member, awaits, -⟩ := mem_dueSoonRows.mp selected
    rcases mem_append.mp isHeld with isHeld | isReturned
    · obtain ⟨scan, isScan, isHeld⟩ := mem_flatten.mp isHeld
      exact apart row selected scan isScan isHeld
    · have isMarked := sound.marked row member isReturned
      simp_all [TaskRow.awaits]
  marked := sound.marked

theorem ScanStep.sound {world after : Scanning Id} (step : ScanStep Scanning.Apart world after)
    (sound : world.Sound) : after.Sound := by
  cases step with
  | selects apart => exact sound.selects apart
  | marks now =>
    rename_i rows front scan back returned
    constructor
    · have perm : ((front ++ scan :: back).flatten ++ returned).Perm
          ((front ++ back).flatten ++ (scan ++ returned)) := by
        simp only [flatten_append, flatten_cons, append_assoc]
        exact (perm_append_comm_assoc scan _ _).append_left _
      exact perm.nodup sound.once
    · intro row member isReturned
      obtain ⟨old, stored, rfl⟩ := mem_setDueSoon.mp member
      have isMarked := sound.marked old stored
      split at isReturned
      · rename_i unmarked
        rw [if_pos unmarked]
        rfl
      · rename_i untouched
        rw [if_neg untouched]
        rcases mem_append.mp isReturned with isHeld | isReturned
        · simpa [isHeld, Option.isSome_iff_ne_none] using untouched
        · exact isMarked isReturned
  | fails =>
    rename_i rows front scan back returned
    refine ⟨sound.once.sublist ?_, sound.marked⟩
    simp only [flatten_append, flatten_cons, append_assoc]
    exact (sublist_append_right scan _).append_left _
  | edits kept =>
    refine ⟨sound.once, fun row member isReturned => ?_⟩
    rcases kept row member with isNew | ⟨old, stored, sameId, sameMark⟩
    · exact absurd isReturned isNew
    · rw [← sameMark]
      exact sound.marked old stored (sameId ▸ isReturned)
  | clears id =>
    refine ⟨sound.once.sublist (filter_sublist.append_left _), fun row member isReturned => ?_⟩
    obtain ⟨old, stored, rfl⟩ := mem_setDueSoon.mp member
    have isMarked := sound.marked old stored
    grind

/-- In every run whose scans are allowed, a scan selects exactly what is due and no task is returned
twice between two clearings of its mark. -/
def ScansOnce (allowed : Scanning Id → Int → Int → Prop) : Prop :=
  ∀ start world : Scanning Id, start.scans = [] → start.returned = [] →
    Relation.ReflTransGen (ScanStep allowed) start world → world.returned.Nodup

theorem scansOnce : ScansOnce (@Scanning.Apart Id) := by
  intro start world noScan noneReturned run
  suffices world.Sound from (nodup_append.mp this.once).2.1
  induction run with
  | refl => exact ⟨by simp [noScan, noneReturned], by simp [noneReturned]⟩
  | tail _ step ih => exact step.sound ih

/-- Scans select what is due at every time exactly if the due texts sort by time, and they return a
task once if none selects what another is about to mark. -/
theorem dueSoon_iff (parse : String → Option Int) : ScansOnce (@Scanning.Apart Id) ∧
    ∀ rows : List (TaskRow Id), SelectsExactly parse rows ↔
      ∀ row ∈ rows, row.awaits = true → ∀ due ∈ row.dueAt, SortsByTime parse due :=
  ⟨scansOnce, fun _ => ⟨fun exact _ member awaits _ isDue =>
    sortsByTime_of_selectsExactly exact member awaits isDue, selectsExactly_of_sortsByTime⟩⟩

/-- Nine in the morning in Tokyo, which is midnight in UTC. -/
def inTokyo : TaskRow String :=
  ⟨⟨"task", none, "Book the hall", none, .todo, .medium, none, none, none, none, "user", none,
    some "2026-06-02T09:00:00+09:00", .internal, 1, none, "", ""⟩, none⟩

def tokyoTime (text : String) : Option Int :=
  if text = "2026-06-02T09:00:00+09:00" then some 1780358400000 else none

theorem not_selectsExactly : (∀ due ∈ inTokyo.dueAt, isIso due = true) ∧
    ¬SelectsExactly tokyoTime [inTokyo] := by
  refine ⟨by decide, fun exact => ?_⟩
  rcases sortsByTime_of_selectsExactly exact (.head _) (by decide) rfl with
    ⟨time, -, -, isText⟩ | ⟨unread, -⟩
  · have isUtc : 'Z' ∈ (toISOString time).toList := by simp [toISOString]
    rw [← isText] at isUtc
    exact absurd isUtc (by decide)
  · refine unread 1780358400000 (if_pos rfl) ⟨by decide, ?_⟩
    have year := CivilDate.year_le (sinceYearZero 1780358400000 / 86400000)
    have days : sinceYearZero 1780358400000 / 86400000 < 1000000 := by decide
    unfold dateOf
    omega

end DubEcosystem.TaskService
