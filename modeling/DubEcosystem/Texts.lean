import Mathlib.Data.String.Basic

/-!
# Texts: separators and fixed widths

Numbers that are padded to one width sort as texts as they do as numbers, and so do instants
written by `toISOString`, for as long as the year has four digits.
-/

namespace DubEcosystem.Texts

open List

theorem append_lt_append_iff {α : Type} [LinearOrder α] {first second tail other : List α}
    (same : first.length = second.length) :
    first ++ tail < second ++ other ↔ first < second ∨ first = second ∧ tail < other := by
  induction first generalizing second with
  | nil =>
    cases second with
    | nil => simp
    | cons _ _ => cases same
  | cons head rest ih =>
    cases second with
    | nil => cases same
    | cons _ _ =>
      simp only [cons_append, cons_lt_cons_iff, List.cons.injEq, ih (Nat.succ.inj same)]
      tauto

/-- A text ends at the first separator. -/
theorem split_at_separator {separator : Char} {first first' rest rest' : List Char}
    (free : separator ∉ first) (free' : separator ∉ first')
    (same : first ++ separator :: rest = first' ++ separator :: rest') :
    first = first' ∧ rest = rest' := by
  induction first generalizing first' with
  | nil =>
    cases first' with
    | nil => exact ⟨rfl, (List.cons.inj same).2⟩
    | cons head tail =>
      obtain ⟨rfl, -⟩ := List.cons.inj same
      simp at free'
  | cons head tail ih =>
    cases first' with
    | nil =>
      obtain ⟨rfl, -⟩ := List.cons.inj same
      simp at free
    | cons head' tail' =>
      obtain ⟨rfl, tails⟩ := List.cons.inj same
      rw [mem_cons, not_or] at free free'
      obtain ⟨rfl, rests⟩ := ih free.2 free'.2 tails
      exact ⟨rfl, rests⟩

/-- The last digits of a number. -/
def pad : Nat → Nat → List Char
  | 0, _ => []
  | width + 1, n => pad width (n / 10) ++ [Nat.digitChar (n % 10)]

variable {width n m : Nat}

theorem length_pad : (pad width n).length = width := by
  induction width generalizing n with
  | zero => rfl
  | succ width ih => simp [pad, ih]

theorem pad_lt (small : m < 10 ^ width) (lt : n < m) : pad width n < pad width m := by
  have digits : ∀ i < 10, ∀ j < 10, i < j → Nat.digitChar i < Nat.digitChar j := by
    decide
  induction width generalizing n m with
  | zero => omega
  | succ width ih =>
    rw [pad, pad, append_lt_append_iff (length_pad.trans length_pad.symm)]
    rcases (Nat.div_le_div_right lt.le : n / 10 ≤ m / 10).lt_or_eq with high | same
    · exact .inl (ih (by omega) high)
    · refine .inr ⟨by rw [same], cons_lt_cons_iff.mpr (.inl ?_)⟩
      exact digits _ (Nat.mod_lt _ (by decide)) _ (Nat.mod_lt _ (by decide)) (by omega)

/-- Of two texts with a number at the start, the one with the smaller number comes first. -/
theorem pad_append_lt {tail other : List Char} (small : m < 10 ^ width)
    (before : n < m ∨ n = m ∧ tail < other) : pad width n ++ tail < pad width m ++ other := by
  rw [append_lt_append_iff (length_pad.trans length_pad.symm)]
  exact before.imp (pad_lt small) (And.imp_left (congrArg _))

theorem cons_pad_append_lt {c : Char} {tail other : List Char} {before : Prop}
    (small : m < 10 ^ width) (lex : n < m ∨ n = m ∧ before) (later : before → tail < other) :
    c :: (pad width n ++ tail) < c :: (pad width m ++ other) :=
  cons_lt_cons_iff.mpr (.inr ⟨rfl, pad_append_lt small (lex.imp_right (And.imp_right later))⟩)

structure CivilDate where
  year : Nat
  month : Nat
  day : Nat
  bounds : (1 ≤ month ∧ month ≤ 12) ∧ 1 ≤ day ∧ day ≤ 31

namespace CivilDate

variable (date : CivilDate)

def daysInMonth : Nat :=
  if date.month = 2 then
    if date.year % 4 = 0 ∧ (date.year % 100 ≠ 0 ∨ date.year % 400 = 0) then 29 else 28
  else if date.month ∈ [4, 6, 9, 11] then 30 else 31

theorem daysInMonth_le : date.daysInMonth ≤ 31 := by
  unfold daysInMonth
  split_ifs <;> decide

def next : CivilDate :=
  if inside : date.day < date.daysInMonth then
    { date with
      day := date.day + 1
      bounds := ⟨date.bounds.1, by omega, inside.trans_le date.daysInMonth_le⟩ }
  else if inside : date.month < 12 then
    ⟨date.year, date.month + 1, 1, ⟨by omega, inside⟩, by decide⟩
  else ⟨date.year + 1, 1, 1, by decide⟩

/-- Counts months of 31 days. -/
def number : Nat :=
  date.year * 372 + date.month * 31 + date.day

theorem number_lt_next : date.number < date.next.number := by
  have bounds := date.bounds
  unfold next number
  split_ifs <;> dsimp only <;> omega

/-- The date so many days after the first of January of the year 0. -/
def ofDays : Nat → CivilDate
  | 0 => ⟨0, 1, 1, by decide⟩
  | days + 1 => (ofDays days).next

theorem number_strictMono : StrictMono fun days => (ofDays days).number :=
  strictMono_nat_of_lt_succ fun days => (ofDays days).number_lt_next

theorem next_soon : date.next.year * 336 + date.next.month * 28 + date.next.day ≤
    date.year * 336 + date.month * 28 + date.day + 1 := by
  have long : 28 ≤ date.daysInMonth := by
    unfold daysInMonth
    split_ifs <;> decide
  have bounds := date.bounds
  unfold next
  split_ifs <;> dsimp only <;> omega

theorem year_le (days : Nat) :
    (ofDays days).year * 336 + (ofDays days).month * 28 + (ofDays days).day ≤ days + 29 := by
  induction days with
  | zero => simp [ofDays]
  | succ days ih =>
    have soon := (ofDays days).next_soon.trans (Nat.add_le_add_right ih 1)
    rwa [Nat.add_right_comm days] at soon

end CivilDate

/-- Milliseconds since the first of January of the year 0. -/
def sinceYearZero (time : Int) : Nat :=
  (time + 62167219200000).toNat

def dateOf (time : Int) : CivilDate :=
  .ofDays (sinceYearZero time / 86400000)

/-- Instants of the years 0 to 9999. -/
def HasFourDigits (time : Int) : Prop :=
  -62167219200000 ≤ time ∧ (dateOf time).year < 10000

theorem HasFourDigits.of_le {first time last : Int} (inside : HasFourDigits first)
    (alsoInside : HasFourDigits last) (from_le : first ≤ time) (le_to : time ≤ last) :
    HasFourDigits time := by
  refine ⟨inside.1.trans from_le, ?_⟩
  have days : sinceYearZero time / 86400000 ≤ sinceYearZero last / 86400000 :=
    Nat.div_le_div_right (Int.toNat_le_toNat (by omega))
  have dates : (dateOf time).number ≤ (dateOf last).number :=
    CivilDate.number_strictMono.monotone days
  have year := alsoInside.2
  have bounds := And.intro (dateOf time).bounds (dateOf last).bounds
  unfold CivilDate.number at dates
  omega

/-- As it is written for years of four digits. -/
def toISOString (time : Int) : String :=
  let date := dateOf time
  let clock := sinceYearZero time % 86400000
  String.ofList (pad 4 date.year ++ '-' :: (pad 2 date.month ++ '-' :: (pad 2 date.day ++
    'T' :: (pad 2 (clock / 3600000) ++ ':' :: (pad 2 (clock / 60000 % 60) ++
    ':' :: (pad 2 (clock / 1000 % 60) ++ '.' :: (pad 3 (clock % 1000) ++ ['Z'])))))))

theorem toISOString_lt {first second : Int} (inside : HasFourDigits first)
    (alsoInside : HasFourDigits second) (lt : first < second) :
    toISOString first < toISOString second := by
  have ms : sinceYearZero first < sinceYearZero second := by
    unfold sinceYearZero
    have := inside.1
    omega
  have dates : (dateOf first).number < (dateOf second).number ∨
      dateOf first = dateOf second ∧
        sinceYearZero first % 86400000 < sinceYearZero second % 86400000 := by
    rcases (Nat.div_le_div_right ms.le : _ / 86400000 ≤ _ / 86400000).lt_or_eq with less | same
    · exact .inl (CivilDate.number_strictMono less)
    · exact .inr ⟨congrArg CivilDate.ofDays same, by omega⟩
  have year := alsoInside.2
  have inside := Nat.mod_lt (sinceYearZero second) (by decide : 0 < 86400000)
  rw [String.lt_iff_toList_lt, toISOString, toISOString, String.toList_ofList, String.toList_ofList]
  generalize sinceYearZero first % 86400000 = clock, sinceYearZero second % 86400000 = clock',
    dateOf first = date, dateOf second = date' at *
  have bounds := And.intro date.bounds date'.bounds
  have lex : date.year < date'.year ∨ date.year = date'.year ∧ (date.month < date'.month ∨
      date.month = date'.month ∧ (date.day < date'.day ∨ date.day = date'.day ∧ clock < clock')) := by
    rcases dates with less | ⟨rfl, less⟩
    · unfold CivilDate.number at less
      omega
    · exact .inr ⟨rfl, .inr ⟨rfl, .inr ⟨rfl, less⟩⟩⟩
  refine pad_append_lt year (lex.imp_right (And.imp_right fun lex => ?_))
  refine cons_pad_append_lt (by omega) lex fun lex => ?_
  refine cons_pad_append_lt (by omega) lex fun less => ?_
  have lex : clock / 3600000 < clock' / 3600000 ∨ clock / 3600000 = clock' / 3600000 ∧
      (clock / 60000 % 60 < clock' / 60000 % 60 ∨ clock / 60000 % 60 = clock' / 60000 % 60 ∧
      (clock / 1000 % 60 < clock' / 1000 % 60 ∨ clock / 1000 % 60 = clock' / 1000 % 60 ∧
        clock % 1000 < clock' % 1000)) := by
    omega
  refine cons_pad_append_lt (by omega) lex fun lex => ?_
  refine cons_pad_append_lt (by omega) lex fun lex => ?_
  refine cons_pad_append_lt (by omega) lex fun less => ?_
  exact cons_lt_cons_iff.mpr (.inr ⟨rfl, pad_append_lt (by omega) (.inl less)⟩)

end DubEcosystem.Texts
