import Mathlib.Data.Int.ConditionallyCompleteOrder
import Mathlib.Order.SuccPred.IntervalSucc
import Mathlib.Data.Int.SuccPred
import Mathlib.Data.Int.Interval
import Mathlib.Algebra.Order.Interval.Finset.SuccPred

/-!
# Counting and searching on the integers

A count goes up by one over each selected integer and stays over the others.  A search
looks at one integer after the other until it finds one; whether it ends is a matter of
how many rounds it is given.
-/

namespace DubEcosystem.IntegerCounts

variable {Result : Type}

def Returns (loop : ℕ → Option Result) (value : Result) : Prop :=
  ∃ rounds, ∀ more, rounds ≤ more → loop more = some value

variable {loop : ℕ → Option Result}

theorem Returns.unique {first second : Result}
    (returnsFirst : Returns loop first) (returnsSecond : Returns loop second) :
    first = second := by
  obtain ⟨m, atFirst⟩ := returnsFirst
  obtain ⟨n, atSecond⟩ := returnsSecond
  have same := (atFirst (max m n) (le_max_left m n)).symm.trans
    (atSecond (max m n) (le_max_right m n))
  exact Option.some.inj same

theorem Returns.map {Other : Type} {value : Result}
    (returns : Returns loop value) (change : Result → Other) :
    Returns (fun rounds => (loop rounds).map change) (change value) := by
  obtain ⟨rounds, found⟩ := returns
  refine ⟨rounds, fun more enough => ?_⟩
  simp only [found more enough, Option.map_some]

theorem Returns.bind {Other : Type} {value : Result}
    {next : ℕ → Result → Option Other} {last : Other} (returns : Returns loop value)
    (further : Returns (fun rounds => next rounds value) last) :
    Returns (fun rounds => (loop rounds).bind (next rounds)) last := by
  obtain ⟨m, found⟩ := returns
  obtain ⟨n, foundNext⟩ := further
  refine ⟨max m n, fun more enough => ?_⟩
  simp only [found more ((le_max_left m n).trans enough), Option.bind_some]
  exact foundNext more ((le_max_right m n).trans enough)

/-- The first integer from here on that `stop` accepts. -/
def searchUp (stop : ℤ → Bool) : ℕ → ℤ → Option ℤ
  | 0, _ => none
  | rounds + 1, here => if stop here then some here else searchUp stop rounds (here + 1)

/-- Nothing before `found` is accepted. -/
structure IsFirst (stop : ℤ → Bool) (start found : ℤ) : Prop where
  le : start ≤ found
  accepted : stop found = true
  skipped : ∀ here, start ≤ here → here < found → stop here = false

theorem searchUp_of_isFirst {stop : ℤ → Bool} {start found : ℤ}
    (isFirst : IsFirst stop start found) :
    Returns (fun rounds => searchUp stop rounds start) found := by
  obtain ⟨distance, rfl⟩ := Int.le.dest isFirst.le
  refine ⟨distance + 1, ?_⟩
  induction distance generalizing start with
  | zero =>
    intro more enough
    obtain ⟨rounds, rfl⟩ := Nat.exists_eq_add_of_le' enough
    have accepted := isFirst.accepted
    simp only [Nat.cast_zero, add_zero] at accepted
    simp [searchUp, accepted]
  | succ distance ih =>
    intro more enough
    obtain ⟨rounds, rfl⟩ := Nat.exists_eq_add_of_le' ((Nat.le_add_left 1 _).trans enough)
    have refused : stop start = false := isFirst.skipped start (le_refl _) (by omega)
    have rest : IsFirst stop (start + 1) (start + 1 + distance) := by
      refine ⟨by omega, ?_, fun here above below =>
        isFirst.skipped here (by omega) (by push_cast; omega)⟩
      have accepted := isFirst.accepted
      push_cast at accepted
      rwa [add_comm (distance : ℤ), ← add_assoc] at accepted
    have found := ih rest rounds (by omega)
    simp only [searchUp, refused, Bool.false_eq_true, if_false, found]
    push_cast
    rw [add_comm (distance : ℤ), ← add_assoc]

theorem exists_isFirst {stop : ℤ → Bool} {start : ℤ}
    (accepts : ∃ found, start ≤ found ∧ stop found = true) :
    ∃ found, IsFirst stop start found := by
  obtain ⟨found, above, accepted⟩ := accepts
  obtain ⟨distance, rfl⟩ := Int.le.dest above
  induction distance using Nat.strong_induction_on with
  | _ distance ih =>
    by_cases earlier : ∃ here, start ≤ here ∧ here < start + distance ∧ stop here = true
    · obtain ⟨here, fromStart, before, acceptedHere⟩ := earlier
      obtain ⟨shorter, rfl⟩ := Int.le.dest fromStart
      exact ih shorter (by omega) fromStart acceptedHere
    · push Not at earlier
      exact ⟨_, above, accepted, fun here fromStart before =>
        Bool.eq_false_of_not_eq_true (earlier here fromStart before)⟩

variable {selected : ℤ → Bool} {count : ℤ → ℤ}

/-- `count` goes up by one over each selected integer and stays over the others. -/
def Counts (selected : ℤ → Bool) (count : ℤ → ℤ) : Prop :=
  ∀ n, count (n + 1) = count n + if selected n then 1 else 0

namespace Counts

variable (counts : Counts selected count)

include counts

theorem monotone : Monotone count := by
  apply monotone_int_of_le_succ
  intro n
  have step := counts n
  split at step
  · omega
  · omega

theorem lt_of_selected {m n : ℤ} (isSelected : selected m = true) (less : m < n) :
    count m < count n := by
  have step := counts m
  rw [if_pos isSelected] at step
  have rest := counts.monotone (Int.add_one_le_of_lt less)
  omega

/-- A selected integer is known by its count. -/
theorem eq_of_selected {m n : ℤ} (mSelected : selected m = true)
    (nSelected : selected n = true) (same : count m = count n) : m = n := by
  rcases lt_trichotomy m n with less | equal | more
  · exact ((counts.lt_of_selected mSelected less).ne same).elim
  · exact equal
  · exact ((counts.lt_of_selected nSelected more).ne same.symm).elim

/-- The first selected integer from here on has the count that there is here. -/
theorem isFirst_count {start found : ℤ} (isFirst : IsFirst selected start found) :
    count found = count start := by
  obtain ⟨distance, rfl⟩ := Int.le.dest isFirst.le
  have flat : ∀ steps : ℕ, steps ≤ distance → count (start + steps) = count start := by
    intro steps
    induction steps with
    | zero => intro _; simp
    | succ steps ih =>
      intro within
      have step := counts (start + steps)
      rw [isFirst.skipped (start + steps) (by omega) (by omega)] at step
      have same := ih (by omega)
      push_cast
      rw [← add_assoc, step, same]
      simp
  exact flat distance (le_refl _)

/-- Where a search for a count ends: at the count it looked for, or where it began if that
was beyond it. -/
theorem isFirst_reach {start found goal : ℤ}
    (isFirst : IsFirst (fun here => !decide (count here < goal)) start found) :
    count found = max (count start) goal := by
  have reached : goal ≤ count found := by simpa using isFirst.accepted
  rcases isFirst.le.eq_or_lt with rfl | later
  · omega
  · have short : count (found - 1) < goal := by
      simpa using isFirst.skipped (found - 1) (by omega) (by omega)
    have step := counts (found - 1)
    rw [sub_add_cancel] at step
    have fromStart : count start ≤ count (found - 1) := counts.monotone (by omega)
    split at step
    · omega
    · omega

theorem exists_reach (endless : ∀ start, ∃ found, start ≤ found ∧ selected found = true)
    (start goal : ℤ) : ∃ found, start ≤ found ∧ goal ≤ count found := by
  have climbs : ∀ steps : ℕ, ∃ found, start ≤ found ∧ count start + steps ≤ count found := by
    intro steps
    induction steps with
    | zero => exact ⟨start, le_refl _, by simp⟩
    | succ steps ih =>
      obtain ⟨found, above, reached⟩ := ih
      obtain ⟨next, further, isSelected⟩ := endless found
      have before := counts.monotone further
      have step := counts next
      rw [if_pos isSelected] at step
      exact ⟨next + 1, by omega, by push_cast; omega⟩
  obtain ⟨found, above, reached⟩ := climbs (goal - count start).toNat
  exact ⟨found, above, by omega⟩

/-- Between two integers as many are selected as the count goes up by. -/
theorem sub_eq_card {first last : ℤ} (ordered : first ≤ last) : count last - count first =
      ((Finset.Ico first last).filter fun n => selected n = true).card := by
  induction last, ordered using Int.leInduction with
  | base => simp
  | succ last ordered ih =>
    have step := counts last
    rw [← Finset.insert_Ico_right_eq_Ico_add_one ordered, Finset.filter_insert]
    by_cases isSelected : selected last = true
    · rw [if_pos isSelected, Finset.card_insert_of_notMem (by simp)]
      rw [if_pos isSelected] at step
      push_cast
      omega
    · rw [if_neg isSelected]
      rw [if_neg isSelected] at step
      omega

end Counts

end DubEcosystem.IntegerCounts
