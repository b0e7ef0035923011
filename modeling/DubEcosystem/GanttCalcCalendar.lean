import DubEcosystem.GanttCalcSchedule
import DubEcosystem.IntegerCounts
import Mathlib.Algebra.Order.BigOperators.Group.List
import Mathlib.Data.Nat.Count

/-!
# Gantt calculation: the working-day calendar

`createWorkCalendar` of `calendar.ts`.  The ordinal of a day counts the working days
before it, so the two maps of the calendar are inverse wherever the search for an ordinal
begins early enough.  It begins at the day that the ordinal would have without holidays,
which is too late where there are holidays between that day and the epoch.
-/

namespace DubEcosystem.GanttCalc

open IntegerCounts List

def EPOCH_DOW : Int := 4

def DEFAULT_WEEKEND : List Int := [0, 6]

/-- `%` of JavaScript takes the sign of the left side. -/
def dayOfWeek (day : Int) : Int :=
  ((day + EPOCH_DOW).tmod 7 + 7).tmod 7

structure WorkCalendarOptions where
  weekendDays : Option (List Int) := none
  holidays : Option (List String) := none

/-- What the functions of a work calendar share. -/
structure CalendarDays where
  weekend : List Int
  holidayDays : List Int
  distinct : holidayDays.Nodup
  onWeekdays : ∀ day ∈ holidayDays, dayOfWeek day ∉ weekend

def createWorkCalendar {Id : Type} (parse : String → Option Int)
    (options : WorkCalendarOptions) : Except (DubError Id) CalendarDays :=
  let weekend := options.weekendDays.getD DEFAULT_WEEKEND
  ((options.holidays.getD []).mapM fun iso => dayOf parse iso "holidays").map fun days =>
    { weekend
      holidayDays := distinct (days.filter fun day => dayOfWeek day ∉ weekend)
      distinct := nodup_distinct _
      onWeekdays := by
        intro day member
        exact of_decide_eq_true (mem_filter.mp (mem_distinct.mp member)).2 }

namespace CalendarDays

def isWorkDow (calendar : CalendarDays) (i : Nat) : Bool :=
  (EPOCH_DOW + i).tmod 7 ∉ calendar.weekend

def weekPrefix (calendar : CalendarDays) : List Int :=
  (List.range 7).scanl (fun slots i => slots + if calendar.isWorkDow i then 1 else 0) 0

def workOffsets (calendar : CalendarDays) : List Nat :=
  (List.range 7).filter calendar.isWorkDow

def perWeek (calendar : CalendarDays) : Int :=
  calendar.weekPrefix.getD 7 0

def isWorkingDay (calendar : CalendarDays) (day : Int) : Bool :=
  decide (dayOfWeek day ∉ calendar.weekend) && decide (day ∉ calendar.holidayDays)

/-- The loop, for so many rounds. -/
def nextWorkingDay (calendar : CalendarDays) (rounds : Nat) (day : Int) : Option Int :=
  searchUp calendar.isWorkingDay rounds day

/-- Signed count of the working days between day 0 and `n`. -/
def workingDaysUpTo (calendar : CalendarDays) (n : Int) : Int :=
  let weeks := n / 7
  let rem := n - weeks * 7
  calendar.holidayDays.foldl (fun count holiday =>
      if 0 ≤ holiday ∧ holiday < n then count - 1
      else if n ≤ holiday ∧ holiday < 0 then count + 1
      else count)
    (weeks * calendar.perWeek + calendar.weekPrefix.getD rem.toNat 0)

def countWorkingDays (calendar : CalendarDays) (startDay endDay : Int) : Int :=
  if endDay ≤ startDay then 0
  else calendar.workingDaysUpTo endDay - calendar.workingDaysUpTo startDay

def toOrdinal (calendar : CalendarDays) (day : Int) : Int :=
  calendar.workingDaysUpTo day

/-- Where the search for an ordinal begins. -/
def guess (calendar : CalendarDays) (ordinal : Int) : Int :=
  let weeks := ordinal / calendar.perWeek
  let rem := ((ordinal - weeks * calendar.perWeek).tmod calendar.perWeek +
    calendar.perWeek).tmod calendar.perWeek
  weeks * 7 + calendar.workOffsets.getD rem.toNat 0

/-- Both loops of the function, for so many rounds each. -/
def fromOrdinal (calendar : CalendarDays) (rounds : Nat) (ordinal : Int) :
    Option (Except String Int) :=
  if calendar.perWeek = 0 then some (.error "WorkCalendar has no working days")
  else
    ((searchUp (fun day => !decide (calendar.workingDaysUpTo day < ordinal)) rounds
      (calendar.guess ordinal)).bind (calendar.nextWorkingDay rounds)).map .ok

def addWorkingDays (calendar : CalendarDays) (rounds : Nat) (startDay : Int)
    (workingDays : ℚ) : Option (Except String Int) :=
  calendar.fromOrdinal rounds (calendar.toOrdinal startDay + trunc workingDays)

end CalendarDays

/-- The two maps of the calendar are inverse, and steps of working days add up. -/
structure IsInverse (calendar : CalendarDays) : Prop where
  ordinals : ∀ ordinal, ∃ day,
    Returns (fun rounds => calendar.fromOrdinal rounds ordinal) (.ok day) ∧
      calendar.isWorkingDay day = true ∧ calendar.toOrdinal day = ordinal
  days : ∀ day, ∃ next,
    Returns (fun rounds => calendar.nextWorkingDay rounds day) next ∧
      Returns (fun rounds => calendar.fromOrdinal rounds (calendar.toOrdinal day)) (.ok next)
  sums : ∀ (day m n : Int), ∃ between last,
    Returns (fun rounds => calendar.addWorkingDays rounds day m) (.ok between) ∧
      Returns (fun rounds => calendar.addWorkingDays rounds between n) (.ok last) ∧
      Returns (fun rounds => calendar.addWorkingDays rounds day ((m + n : Int) : ℚ)) (.ok last)

def WorkCalendarOptions.HasWeekday (options : WorkCalendarOptions) : Prop :=
  ∃ weekday : Int, 0 ≤ weekday ∧ weekday < 7 ∧ weekday ∉ options.weekendDays.getD DEFAULT_WEEKEND

/-- No holiday before the epoch falls on a weekday. -/
def WorkCalendarOptions.NoEarlyHoliday (parse : String → Option Int)
    (options : WorkCalendarOptions) : Prop :=
  ∀ iso ∈ options.holidays.getD [], ∀ ms, parse iso = some ms → ms / MS_PER_DAY < 0 →
      dayOfWeek (ms / MS_PER_DAY) ∈ options.weekendDays.getD DEFAULT_WEEKEND

section Week

variable (calendar : CalendarDays)

theorem dayOfWeek_eq (day : Int) : dayOfWeek day = (day + EPOCH_DOW) % 7 := by
  unfold dayOfWeek
  have positive : 0 ≤ (day + EPOCH_DOW).tmod 7 + 7 := by
    rw [Int.tmod_eq_emod]
    split <;> omega
  rw [Int.tmod_eq_emod_of_nonneg positive, Int.tmod_eq_emod]
  split <;> omega

theorem isWorkDow_emod (n : Int) :
    calendar.isWorkDow (n % 7).toNat = decide (dayOfWeek n ∉ calendar.weekend) := by
  have place : (EPOCH_DOW + (n % 7).toNat).tmod 7 = dayOfWeek n := by
    unfold EPOCH_DOW
    rw [dayOfWeek_eq, Int.tmod_eq_emod_of_nonneg (by omega)]
    unfold EPOCH_DOW
    omega
  unfold CalendarDays.isWorkDow
  rw [place]

theorem weekPrefix_getD {k : Nat} (within : k ≤ 7) :
    calendar.weekPrefix.getD k 0 = Nat.count (fun i => calendar.isWorkDow i = true) k := by
  have sums : ∀ n : Nat, (List.range n).foldl
      (fun slots i => slots + if calendar.isWorkDow i = true then (1 : Int) else 0) 0 =
        Nat.count (fun i => calendar.isWorkDow i = true) n := by
    intro n
    induction n with
    | zero => rfl
    | succ n ih =>
      rw [range_succ, foldl_append, ih, Nat.count_succ]
      simp only [foldl_cons, foldl_nil]
      split <;> push_cast <;> rfl
  have taken : (List.range 7).take k = List.range k := by
    rw [take_range, min_eq_left within]
  unfold CalendarDays.weekPrefix
  rw [getD_eq_getElem?_getD, getElem?_scanl, taken, sums]
  simp [within]

/-- The places that are selected, in order: as many are selected before each as stand
before it. -/
theorem count_of_mem_filter_range {selected : Nat → Bool} {n r i : Nat}
    (listed : ((List.range n).filter selected)[r]? = some i) :
    i < n ∧ selected i = true ∧ Nat.count (fun i => selected i = true) i = r := by
  induction n with
  | zero => simp at listed
  | succ n ih =>
    have length : ((List.range n).filter selected).length =
        Nat.count (fun i => selected i = true) n := by
      rw [Nat.count, countP_eq_length_filter]
      simp
    rw [range_succ, filter_append] at listed
    by_cases earlier : r < ((List.range n).filter selected).length
    · rw [getElem?_append_left earlier] at listed
      obtain ⟨less, isSelected, counted⟩ := ih listed
      exact ⟨less.trans (Nat.lt_succ_self n), isSelected, counted⟩
    · rw [getElem?_append_right (by omega)] at listed
      by_cases last : selected n = true
      · rw [filter_cons_of_pos last, filter_nil] at listed
        obtain ⟨single, rfl⟩ := List.getElem?_eq_some_iff.mp listed
        simp only [length_singleton] at single
        refine ⟨by simp, by simpa using last, ?_⟩
        simp only [getElem_singleton]
        omega
      · rw [filter_cons_of_neg last, filter_nil] at listed
        simp at listed

theorem perWeek_eq : calendar.perWeek = Nat.count (fun i => calendar.isWorkDow i = true) 7 :=
  weekPrefix_getD calendar (le_refl 7)

/-- The count without holidays. -/
def CalendarDays.weekdaysUpTo (calendar : CalendarDays) (n : Int) : Int :=
  n / 7 * calendar.perWeek + calendar.weekPrefix.getD (n - n / 7 * 7).toNat 0

theorem weekdaysUpTo_eq (n : Int) : calendar.weekdaysUpTo n = n / 7 * calendar.perWeek +
      Nat.count (fun i => calendar.isWorkDow i = true) (n % 7).toNat := by
  have rest : (n - n / 7 * 7).toNat = (n % 7).toNat := by omega
  unfold CalendarDays.weekdaysUpTo
  rw [rest, weekPrefix_getD calendar (by omega)]

theorem weekdays_counts :
    Counts (fun n => decide (dayOfWeek n ∉ calendar.weekend)) calendar.weekdaysUpTo := by
  intro n
  simp only [weekdaysUpTo_eq, ← isWorkDow_emod]
  have step := Nat.count_succ (fun i => calendar.isWorkDow i = true) (n % 7).toNat
  by_cases last : n % 7 = 6
  · have nextWeek : (n + 1) / 7 = n / 7 + 1 := by omega
    have first : ((n + 1) % 7).toNat = 0 := by omega
    have sixth : (n % 7).toNat = 6 := by omega
    rw [sixth] at step
    have perWeek := perWeek_eq calendar
    rw [nextWeek, first, sixth, add_mul, one_mul, perWeek, Nat.count_zero, step]
    push_cast
    ring
  · have sameWeek : (n + 1) / 7 = n / 7 := by omega
    have next : ((n + 1) % 7).toNat = (n % 7).toNat + 1 := by omega
    rw [sameWeek, next, step]
    push_cast
    ring

end Week

section Holidays

/-- What a holiday adds to the count of the days up to `n`. -/
def shift (n holiday : Int) : Int :=
  if 0 ≤ holiday ∧ holiday < n then -1 else if n ≤ holiday ∧ holiday < 0 then 1 else 0

theorem shift_succ (n holiday : Int) :
    shift (n + 1) holiday = shift n holiday - if holiday = n then 1 else 0 := by
  unfold shift
  split_ifs <;> omega

theorem shift_nonpos {n holiday : Int} (late : 0 ≤ holiday) : shift n holiday ≤ 0 := by
  unfold shift
  split_ifs <;> omega

theorem shift_nonneg {n holiday : Int} (early : n < 0) : 0 ≤ shift n holiday := by
  unfold shift
  split_ifs <;> omega

/-- Over a list without repetitions, one more day takes one holiday into account, if it is
one. -/
theorem sum_shift_succ {holidays : List Int} (nodup : holidays.Nodup) (n : Int) :
    (holidays.map (shift (n + 1))).sum =
      (holidays.map (shift n)).sum - if n ∈ holidays then 1 else 0 := by
  induction holidays with
  | nil => simp
  | cons holiday rest ih =>
    obtain ⟨fresh, restNodup⟩ := nodup_cons.mp nodup
    rw [map_cons, map_cons, sum_cons, sum_cons, ih restNodup, shift_succ]
    by_cases isIt : holiday = n
    · subst isIt
      simp [fresh]
      ring
    · simp [isIt, Ne.symm isIt]
      ring

variable (calendar : CalendarDays)

theorem workingDaysUpTo_eq (n : Int) : calendar.workingDaysUpTo n =
      calendar.weekdaysUpTo n + (calendar.holidayDays.map (shift n)).sum := by
  have folds : ∀ (holidays : List Int) (start : Int), holidays.foldl (fun count holiday =>
        if 0 ≤ holiday ∧ holiday < n then count - 1
        else if n ≤ holiday ∧ holiday < 0 then count + 1 else count) start =
        start + (holidays.map (shift n)).sum := by
    intro holidays
    induction holidays with
    | nil => simp
    | cons holiday rest ih =>
      intro start
      rw [foldl_cons, ih, map_cons, sum_cons]
      unfold shift
      split_ifs <;> ring
  exact folds calendar.holidayDays _

theorem workingDays_counts : Counts calendar.isWorkingDay calendar.workingDaysUpTo := by
  intro n
  have weekday := weekdays_counts calendar n
  simp only [workingDaysUpTo_eq, sum_shift_succ calendar.distinct, weekday,
    CalendarDays.isWorkingDay]
  by_cases holiday : n ∈ calendar.holidayDays
  · simp [holiday, calendar.onWeekdays n holiday]
  · simp [holiday]
    ring

end Holidays

section Ordinals

variable {calendar : CalendarDays}

section

variable (hasWeekday : 0 < calendar.perWeek)
include hasWeekday

/-- The search for an ordinal begins on the weekday that has it without holidays. -/
theorem guess_spec (ordinal : Int) : calendar.weekdaysUpTo (calendar.guess ordinal) = ordinal ∧
      dayOfWeek (calendar.guess ordinal) ∉ calendar.weekend := by
  have below := Int.emod_lt_of_pos ordinal hasWeekday
  have above := Int.emod_nonneg ordinal hasWeekday.ne'
  have rest : ordinal - ordinal / calendar.perWeek * calendar.perWeek =
      ordinal % calendar.perWeek := by
    rw [Int.emod_def, mul_comm]
  have rem : ((ordinal - ordinal / calendar.perWeek * calendar.perWeek).tmod
      calendar.perWeek + calendar.perWeek).tmod calendar.perWeek = ordinal % calendar.perWeek := by
    rw [rest, Int.tmod_eq_emod_of_nonneg above, Int.emod_eq_of_lt above below,
      Int.tmod_eq_emod_of_nonneg (by omega), Int.add_emod_right, Int.emod_eq_of_lt above below]
  have length : calendar.workOffsets.length = calendar.perWeek.toNat := by
    unfold CalendarDays.workOffsets
    rw [perWeek_eq, Nat.count, countP_eq_length_filter]
    simp
  have inRange : (ordinal % calendar.perWeek).toNat < calendar.workOffsets.length := by
    omega
  have listed := getElem?_eq_getElem inRange
  generalize calendar.workOffsets[(ordinal % calendar.perWeek).toNat] = offset at listed
  obtain ⟨inWeek, isWorkDow, counted⟩ := count_of_mem_filter_range listed
  have guessed : calendar.guess ordinal = ordinal / calendar.perWeek * 7 + offset := by
    simp only [CalendarDays.guess, rem, getD_eq_getElem?_getD, listed, Option.getD_some]
  have week : calendar.guess ordinal / 7 = ordinal / calendar.perWeek := by omega
  have place : (calendar.guess ordinal % 7).toNat = offset := by omega
  constructor
  · rw [weekdaysUpTo_eq, week, place, counted, Int.toNat_of_nonneg above]
    have division := Int.mul_ediv_add_emod ordinal calendar.perWeek
    rw [mul_comm] at division
    exact division
  · rw [← place, isWorkDow_emod] at isWorkDow
    exact of_decide_eq_true isWorkDow

omit hasWeekday in
theorem exists_workingDay {weekday : Int} (nonneg : 0 ≤ weekday) (inWeek : weekday < 7)
    (free : weekday ∉ calendar.weekend) (start : Int) :
    ∃ day, start ≤ day ∧ calendar.isWorkingDay day = true := by
  obtain ⟨bound, later⟩ := calendar.holidayDays.toFinset.bddAbove
  let from_ := max start (bound + 1)
  refine ⟨from_ + (weekday - dayOfWeek from_) % 7, ?_, ?_⟩
  · have positive := Int.emod_nonneg (weekday - dayOfWeek from_) (by decide : (7 : Int) ≠ 0)
    omega
  · have isWeekday : dayOfWeek (from_ + (weekday - dayOfWeek from_) % 7) = weekday := by
      rw [dayOfWeek_eq, dayOfWeek_eq]
      omega
    have noHoliday : from_ + (weekday - dayOfWeek from_) % 7 ∉ calendar.holidayDays := by
      intro holiday
      have atMost := later (Finset.mem_coe.mpr (mem_toFinset.mpr holiday))
      omega
    simp [CalendarDays.isWorkingDay, isWeekday, free, noHoliday]

/-- Where `fromOrdinal` ends: at a working day, with the ordinal that was asked for or that
of the day where the search began, if that is greater. -/
theorem exists_fromOrdinal
    (endless : ∀ start, ∃ day, start ≤ day ∧ calendar.isWorkingDay day = true) (ordinal : Int) :
    ∃ day, Returns (fun rounds => calendar.fromOrdinal rounds ordinal) (.ok day) ∧
      calendar.isWorkingDay day = true ∧
        calendar.toOrdinal day = max (calendar.toOrdinal (calendar.guess ordinal)) ordinal := by
  have counts := workingDays_counts calendar
  obtain ⟨reach, above, reached⟩ :=
    counts.exists_reach endless (calendar.guess ordinal) ordinal
  have accepts : ∃ day, calendar.guess ordinal ≤ day ∧
      (fun day => !decide (calendar.workingDaysUpTo day < ordinal)) day = true :=
    ⟨reach, above, by simpa using reached⟩
  obtain ⟨found, isFirst⟩ := exists_isFirst accepts
  obtain ⟨day, isNext⟩ := exists_isFirst (endless found)
  refine ⟨day, ?_, isNext.accepted, ?_⟩
  · have next : Returns (fun rounds => calendar.nextWorkingDay rounds found) day :=
      searchUp_of_isFirst isNext
    have loops := ((searchUp_of_isFirst isFirst).bind next).map (Except.ok (ε := String))
    simpa only [CalendarDays.fromOrdinal, hasWeekday.ne', if_false] using loops
  · exact (counts.isFirst_count isNext).trans (counts.isFirst_reach isFirst)

omit hasWeekday in
theorem perWeek_pos {weekday : Int} (nonneg : 0 ≤ weekday) (inWeek : weekday < 7)
    (free : weekday ∉ calendar.weekend) : 0 < calendar.perWeek := by
  have counts := weekdays_counts calendar
  have isWeekday : dayOfWeek (weekday - EPOCH_DOW) = weekday := by
    rw [dayOfWeek_eq]
    omega
  have climbs := counts.lt_of_selected (m := weekday - EPOCH_DOW)
    (by simpa [isWeekday] using free) (by omega : _ < weekday - EPOCH_DOW + 7)
  rw [weekdaysUpTo_eq, weekdaysUpTo_eq] at climbs
  have sameDay : ((weekday - EPOCH_DOW + 7) % 7).toNat = ((weekday - EPOCH_DOW) % 7).toNat := by
    omega
  have nextWeek : (weekday - EPOCH_DOW + 7) / 7 = (weekday - EPOCH_DOW) / 7 + 1 := by omega
  rw [sameDay, nextWeek, add_mul] at climbs
  omega

/-- Without holidays before the epoch no search begins too late. -/
theorem toOrdinal_guess_le (late : ∀ holiday ∈ calendar.holidayDays, 0 ≤ holiday) (ordinal : Int) :
    calendar.toOrdinal (calendar.guess ordinal) ≤ ordinal := by
  have shifts : (calendar.holidayDays.map (shift (calendar.guess ordinal))).sum ≤ 0 := by
    have bounded := sum_le_sum (g := fun _ => (0 : Int))
      fun holiday isHoliday => shift_nonpos (n := calendar.guess ordinal) (late holiday isHoliday)
    simpa using bounded
  have guessed := (guess_spec hasWeekday ordinal).1
  unfold CalendarDays.toOrdinal
  rw [workingDaysUpTo_eq, guessed]
  omega

/-- A holiday before the epoch is where the search for its own ordinal begins, too late. -/
theorem lt_toOrdinal_guess {holiday : Int} (isHoliday : holiday ∈ calendar.holidayDays)
    (early : holiday < 0) :
    calendar.weekdaysUpTo holiday <
      calendar.toOrdinal (calendar.guess (calendar.weekdaysUpTo holiday)) := by
  obtain ⟨guessed, isWeekday⟩ := guess_spec hasWeekday (calendar.weekdaysUpTo holiday)
  have same : calendar.guess (calendar.weekdaysUpTo holiday) = holiday :=
    (weekdays_counts calendar).eq_of_selected (by simpa using isWeekday)
      (by simpa using calendar.onWeekdays holiday isHoliday) guessed
  have shifts : shift holiday holiday ≤ (calendar.holidayDays.map (shift holiday)).sum := by
    apply single_le_sum
    · intro moved member
      obtain ⟨other, -, rfl⟩ := List.mem_map.mp member
      exact shift_nonneg early
    · exact mem_map_of_mem isHoliday
  have itself : shift holiday holiday = 1 := by
    unfold shift
    split_ifs <;> omega
  unfold CalendarDays.toOrdinal
  rw [same, workingDaysUpTo_eq]
  omega

/-- The maps are inverse where every search for an ordinal begins early enough. -/
theorem isInverse_of_guess_le
    (endless : ∀ start, ∃ day, start ≤ day ∧ calendar.isWorkingDay day = true)
    (early : ∀ ordinal, calendar.toOrdinal (calendar.guess ordinal) ≤ ordinal) :
    IsInverse calendar := by
  have counts := workingDays_counts calendar
  have ordinals : ∀ ordinal, ∃ day,
      Returns (fun rounds => calendar.fromOrdinal rounds ordinal) (.ok day) ∧
        calendar.isWorkingDay day = true ∧ calendar.toOrdinal day = ordinal := by
    intro ordinal
    obtain ⟨day, returns, isWorking, counted⟩ :=
      exists_fromOrdinal hasWeekday endless ordinal
    exact ⟨day, returns, isWorking, counted.trans (max_eq_right (early ordinal))⟩
  refine ⟨ordinals, ?_, ?_⟩
  · intro day
    obtain ⟨next, isNext⟩ := exists_isFirst (endless day)
    obtain ⟨found, returns, isWorking, counted⟩ := ordinals (calendar.toOrdinal day)
    have same : found = next := counts.eq_of_selected isWorking isNext.accepted
      (counted.trans (counts.isFirst_count isNext).symm)
    exact ⟨next, searchUp_of_isFirst isNext, same ▸ returns⟩
  · intro day m n
    obtain ⟨between, toBetween, -, atBetween⟩ := ordinals (calendar.toOrdinal day + m)
    obtain ⟨last, toLast, -, -⟩ := ordinals (calendar.toOrdinal day + m + n)
    have truncated : ∀ steps : Int, trunc (steps : ℚ) = steps := by
      intro steps
      unfold trunc
      split <;> simp
    refine ⟨between, last, ?_, ?_, ?_⟩
    · simpa only [CalendarDays.addWorkingDays, truncated] using toBetween
    · simpa only [CalendarDays.addWorkingDays, truncated, atBetween] using toLast
    · simpa only [CalendarDays.addWorkingDays, truncated, ← add_assoc] using toLast

end

end Ordinals

section Created

variable {Id : Type} {parse : String → Option Int} {options : WorkCalendarOptions}
  {calendar : CalendarDays}

theorem mem_of_mapM_ok {Error Source Target : Type} {read : Source → Except Error Target}
    {sources : List Source} {targets : List Target}
    (mapped : sources.mapM read = .ok targets) (target : Target) :
    target ∈ targets ↔ ∃ source ∈ sources, read source = .ok target := by
  induction sources generalizing targets with
  | nil =>
    cases mapped
    simp
  | cons source rest ih =>
    rw [mapM_cons] at mapped
    cases first : read source with
    | error error =>
      rw [first] at mapped
      cases mapped
    | ok value =>
      cases others : rest.mapM read with
      | error error =>
        rw [first, others] at mapped
        cases mapped
      | ok values =>
        rw [first, others] at mapped
        cases mapped
        simp only [mem_cons, exists_eq_or_imp, first, Except.ok.injEq, ih others]
        exact or_congr_left eq_comm

theorem createWorkCalendar_spec
    (created : (createWorkCalendar parse options : Except (DubError Id) _) = .ok calendar) :
    calendar.weekend = options.weekendDays.getD DEFAULT_WEEKEND ∧
      ∀ day, day ∈ calendar.holidayDays ↔ dayOfWeek day ∉ calendar.weekend ∧
        ∃ iso ∈ options.holidays.getD [], ∃ ms, parse iso = some ms ∧ ms / MS_PER_DAY = day := by
  unfold createWorkCalendar at created
  cases read : (options.holidays.getD []).mapM fun iso =>
      (dayOf parse iso "holidays" : Except (DubError Id) Int) with
  | error error =>
    rw [read] at created
    cases created
  | ok days =>
    rw [read] at created
    cases created
    refine ⟨rfl, fun day => ?_⟩
    have isDay : ∀ iso, (dayOf parse iso "holidays" : Except (DubError Id) Int) = .ok day ↔
        ∃ ms, parse iso = some ms ∧ ms / MS_PER_DAY = day := by
      intro iso
      unfold dayOf
      cases parse iso <;> simp
    simp only [mem_distinct, mem_filter, mem_of_mapM_ok read, isDay, decide_eq_true_eq]
    exact and_comm

/-- What `countWorkingDays` and `nextWorkingDay` of a calendar are for. -/
structure CountsWorkingDays (calendar : CalendarDays) (options : WorkCalendarOptions) : Prop where
  counted : ∀ startDay endDay, calendar.countWorkingDays startDay endDay =
    ((Finset.Ico startDay endDay).filter fun day => calendar.isWorkingDay day = true).card
  next : options.HasWeekday → ∀ day, ∃ next,
    Returns (fun rounds => calendar.nextWorkingDay rounds day) next ∧
      IsLeast {later | day ≤ later ∧ calendar.isWorkingDay later = true} next

/-- The closed form counts the working days of a range, and the search for the next one ends
at the least. -/
theorem countsWorkingDays_of_created
    (created : (createWorkCalendar parse options : Except (DubError Id) _) = .ok calendar) :
    CountsWorkingDays calendar options where
  counted := by
    intro startDay endDay
    unfold CalendarDays.countWorkingDays
    split
    · rename_i empty
      simp [Finset.Ico_eq_empty_of_le empty]
    · rename_i ordered
      exact (workingDays_counts calendar).sub_eq_card (not_le.mp ordered).le
  next := by
    rintro ⟨weekday, nonneg, inWeek, free⟩ day
    rw [← (createWorkCalendar_spec created).1] at free
    obtain ⟨next, isNext⟩ := exists_isFirst (exists_workingDay nonneg inWeek free day)
    refine ⟨next, searchUp_of_isFirst isNext, ⟨isNext.le, isNext.accepted⟩, ?_⟩
    rintro later ⟨above, isWorking⟩
    by_contra before
    rw [isNext.skipped later above (not_le.mp before)] at isWorking
    cases isWorking

section

variable (hasWeekday : options.HasWeekday)
  (created : (createWorkCalendar parse options : Except (DubError Id) _) = .ok calendar)
include hasWeekday created

theorem noEarlyHoliday_of_isInverse (inverse : IsInverse calendar) :
    options.NoEarlyHoliday parse := by
  obtain ⟨weekend, holidays⟩ := createWorkCalendar_spec created
  obtain ⟨weekday, nonneg, inWeek, free⟩ := hasWeekday
  rw [← weekend] at free
  have positive := perWeek_pos nonneg inWeek free
  intro iso listed ms parsed early
  by_contra onWeekday
  rw [← weekend] at onWeekday
  have isHoliday := (holidays (ms / MS_PER_DAY)).mpr ⟨onWeekday, iso, listed, ms, parsed, rfl⟩
  have beyond := lt_toOrdinal_guess positive isHoliday early
  obtain ⟨day, returns, -, counted⟩ :=
    inverse.ordinals (calendar.weekdaysUpTo (ms / MS_PER_DAY))
  obtain ⟨found, returnsFound, -, countedFound⟩ :=
    exists_fromOrdinal positive (exists_workingDay nonneg inWeek free)
      (calendar.weekdaysUpTo (ms / MS_PER_DAY))
  obtain rfl : day = found := Except.ok.inj (returns.unique returnsFound)
  omega

theorem isInverse_of_noEarlyHoliday (noEarly : options.NoEarlyHoliday parse) :
    IsInverse calendar := by
  obtain ⟨weekend, holidays⟩ := createWorkCalendar_spec created
  obtain ⟨weekday, nonneg, inWeek, free⟩ := hasWeekday
  rw [← weekend] at free
  have positive := perWeek_pos nonneg inWeek free
  apply isInverse_of_guess_le positive (exists_workingDay nonneg inWeek free)
  apply toOrdinal_guess_le positive
  intro holiday isHoliday
  obtain ⟨onWeekday, iso, listed, ms, parsed, rfl⟩ := (holidays holiday).mp isHoliday
  by_contra early
  rw [weekend] at onWeekday
  exact onWeekday (noEarly iso listed ms parsed (not_le.mp early))

/-- The maps of a calendar are inverse exactly where no holiday before the epoch falls on
a weekday. -/
theorem isInverse_iff_noEarlyHoliday : IsInverse calendar ↔ options.NoEarlyHoliday parse :=
  ⟨noEarlyHoliday_of_isInverse hasWeekday created, isInverse_of_noEarlyHoliday hasWeekday created⟩

end

/-- The year's last days. -/
def eveParse (iso : String) : Option Int :=
  if iso = "1969-12-31" then some (-86400000)
  else if iso = "1970-12-31" then some 31449600000
  else none

theorem isInverse_iff_eve : ∃ calendar,
      (createWorkCalendar eveParse { holidays := some ["1970-12-31"] } :
        Except (DubError String) _) = .ok calendar ∧
      (IsInverse calendar ↔
        WorkCalendarOptions.NoEarlyHoliday eveParse { holidays := some ["1970-12-31"] }) := by
  have hasWeekday : WorkCalendarOptions.HasWeekday { holidays := some ["1970-12-31"] } :=
    ⟨1, by decide⟩
  have created : (createWorkCalendar eveParse { holidays := some ["1970-12-31"] } :
      Except (DubError String) _) = .ok _ := rfl
  exact ⟨_, created, isInverse_iff_noEarlyHoliday hasWeekday created⟩

theorem countsWorkingDays_eve : ∃ calendar,
      (createWorkCalendar eveParse { holidays := some ["1969-12-31", "1969-12-31"] } :
        Except (DubError String) _) = .ok calendar ∧
      CountsWorkingDays calendar { holidays := some ["1969-12-31", "1969-12-31"] } := by
  have created : (createWorkCalendar eveParse { holidays := some ["1969-12-31", "1969-12-31"] } :
      Except (DubError String) _) = .ok _ := rfl
  exact ⟨_, created, countsWorkingDays_of_created created⟩

/-- The day before the epoch is a holiday, and the search for the working day before the
epoch ends on the epoch. -/
theorem not_isInverse_eve : ∃ calendar,
      (createWorkCalendar eveParse { holidays := some ["1969-12-31"] } :
        Except (DubError String) _) = .ok calendar ∧
      WorkCalendarOptions.HasWeekday { holidays := some ["1969-12-31"] } ∧
      ¬ IsInverse calendar := by
  have hasWeekday : WorkCalendarOptions.HasWeekday { holidays := some ["1969-12-31"] } :=
    ⟨1, by decide⟩
  have created : (createWorkCalendar eveParse { holidays := some ["1969-12-31"] } :
      Except (DubError String) _) = .ok _ := rfl
  refine ⟨_, created, hasWeekday, fun inverse => ?_⟩
  have onWeekend := noEarlyHoliday_of_isInverse hasWeekday created inverse "1969-12-31"
    (.head _) (-86400000) rfl (by decide)
  exact absurd onWeekend (by decide)

end Created

end DubEcosystem.GanttCalc
