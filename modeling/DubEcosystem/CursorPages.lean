import Mathlib.Data.List.Basic

/-!
# Listings read page by page

A page of a listing may name the cursor of the next one, which holds the key of the page's
last row.  Such a listing is read without loss just when every page end divides its rows.
-/

namespace DubEcosystem.CursorPages

open List

/-- A page of a listing, with the cursor of the next one. -/
structure Page (Row Cursor : Type) where
  items : List Row
  nextCursor : Option Cursor

/-- Following `nextCursor` comes to an end and yields these rows. -/
inductive Follows {Row Cursor Error : Type}
    (list : Option Cursor → Except Error (Page Row Cursor)) : Option Cursor → List Row → Prop
  | last {cursor : Option Cursor} {items : List Row}
      (listed : list cursor = .ok ⟨items, none⟩) : Follows list cursor items
  | more {cursor : Option Cursor} {next : Cursor} {items rest : List Row}
      (listed : list cursor = .ok ⟨items, some next⟩)
      (follows : Follows list (some next) rest) : Follows list cursor (items ++ rest)

section Listings

variable {Row Key Cursor Error : Type} (encode : Key → Except Error Cursor)
  (decode : Cursor → Except Error Key) (key : Row → Key) (beyond : Key → Key → Prop)
  [DecidableRel beyond]

/-- The page of a selection that holds one row more than `limit` where others follow. -/
def pageOf (selected : List Row) (limit : Nat) : Except Error (Page Row Cursor) :=
  let page := if limit < selected.length then selected.take limit else selected
  match page.getLast? with
  | some last =>
    if limit < selected.length then do
      return { items := page, nextCursor := some (← encode (key last)) }
    else return { items := page, nextCursor := none }
  | none => return { items := page, nextCursor := none }

def readCursor : Option Cursor → Except Error (Option Key)
  | some cursor => do return some (← decode cursor)
  | none => return none

/-- The rows that a cursor leaves. -/
def remaining (rows : List Row) (after : Option Key) : List Row :=
  rows.filter fun row => after.all fun last => beyond last (key row)

def listFrom (rows : List Row) (limit : Nat) (cursor : Option Cursor) :
    Except Error (Page Row Cursor) := do
  let after ← readCursor decode cursor
  pageOf encode key ((remaining key beyond rows after).take (limit + 1)) limit

/-- A page of `limit` rows ends with this row, and others follow it. -/
structure PageEnd (limit : Nat) (rows before : List Row) (last : Row) (after : List Row) :
    Prop where
  rows_eq : rows = before ++ last :: after
  followed : after ≠ []
  counted : limit ∣ before.length + 1

/-- The key of a row divides the rows before it from the rows after it. -/
def Divides (before : List Row) (last : Row) (after : List Row) : Prop :=
  (∀ row ∈ before, ¬beyond (key last) (key row)) ∧ ∀ row ∈ after, beyond (key last) (key row)

/-- A cursor can name the row. -/
def Named (row : Row) : Prop :=
  ∃ cursor, encode (key row) = .ok cursor

/-- Every page end divides the rows, and can be named. -/
def EndsDivide (limit : Nat) (rows : List Row) : Prop :=
  ∀ before last after, PageEnd limit rows before last after →
    Named encode key last ∧ Divides key beyond before last after

variable {encode decode key beyond} {rows init after : List Row} {last : Row} {limit : Nat}

theorem pageOf_of_le (few : rows.length ≤ limit) :
    pageOf encode key (rows.take (limit + 1)) limit = .ok ⟨rows, none⟩ := by
  have whole : rows.take (limit + 1) = rows := take_of_length_le (by omega)
  have notMore : ¬limit < rows.length := by omega
  simp only [pageOf, whole, if_neg notMore]
  cases rows.getLast? <;> rfl

theorem pageOf_append (size : init.length + 1 = limit) (followed : after ≠ []) :
    pageOf encode key ((init ++ last :: after).take (limit + 1)) limit =
      (encode (key last)).map fun next => ⟨init ++ [last], some next⟩ := by
  obtain ⟨next, rest, rfl⟩ := exists_cons_of_ne_nil followed
  have selected : (init ++ last :: next :: rest).take (limit + 1) = init ++ [last, next] := by
    rw [take_append, take_of_length_le (by omega), ← size,
      show init.length + 1 + 1 - init.length = 2 by omega]
    rfl
  have more : limit < (init ++ [last, next]).length := by simp; omega
  have page : (init ++ [last, next]).take limit = init ++ [last] := by
    rw [take_append, take_of_length_le (by omega), ← size, Nat.add_sub_cancel_left]
    rfl
  simp only [pageOf, selected, if_pos more, page, getLast?_append, getLast?_singleton,
    Option.some_or]
  cases encode (key last) <;> rfl

theorem remaining_remaining (trans : ∀ first second third,
      beyond first second → beyond second third → beyond first third)
    {before : Option Key} (member : last ∈ remaining key beyond rows before) :
    remaining key beyond (remaining key beyond rows before) (some (key last)) =
      remaining key beyond rows (some (key last)) := by
  have isBeyond := (mem_filter.mp member).2
  rw [remaining, remaining, remaining, filter_filter]
  apply filter_congr
  intro row _
  cases before with
  | none => simp
  | some bound =>
    simp only [Option.all_some, decide_eq_true_eq] at isBeyond
    simp only [Option.all_some, Bool.and_eq_left_iff_imp, decide_eq_true_eq]
    exact trans _ _ _ isBeyond

omit [DecidableRel beyond] in
theorem endsDivide_of_le (few : rows.length ≤ limit) :
    EndsDivide encode key beyond limit rows := by
  rintro before last after ⟨rfl, followed, counted⟩
  have atLeast := Nat.le_of_dvd (by omega) counted
  have nonempty := length_pos_iff.mpr followed
  simp only [length_append, length_cons] at few
  omega

theorem counted_append {before : List Row} (size : init.length + 1 = limit) :
    limit ∣ (init ++ last :: before).length + 1 ↔ limit ∣ before.length + 1 := by
  have length : (init ++ last :: before).length + 1 = limit + (before.length + 1) := by
    rw [length_append, length_cons]
    omega
  rw [length, Nat.dvd_add_right (Nat.dvd_refl limit)]

section Order

variable (irrefl : ∀ value, ¬beyond value value)
  (trans : ∀ first second third, beyond first second → beyond second third → beyond first third)

include irrefl trans

omit [DecidableRel beyond] in
theorem endsDivide_append (size : init.length + 1 = limit) (followed : after ≠ []) :
    EndsDivide encode key beyond limit (init ++ last :: after) ↔
      (Named encode key last ∧ Divides key beyond init last after) ∧
        EndsDivide encode key beyond limit after := by
  constructor
  · intro divide
    refine ⟨divide init last after ⟨rfl, followed, size ▸ Nat.dvd_refl _⟩, ?_⟩
    rintro before other rest ⟨rfl, others, counted⟩
    have atOther := divide (init ++ last :: before) other rest
      ⟨by simp, others, (counted_append size).mpr counted⟩
    exact ⟨atOther.1, fun row member => atOther.2.1 row (by simp [member]), atOther.2.2⟩
  · rintro ⟨⟨named, divides⟩, divideAfter⟩ before other rest ⟨rows_eq, others, counted⟩
    have atLeast := Nat.le_of_dvd (by omega) counted
    rcases append_eq_append_iff.mp rows_eq with ⟨middle, rfl, same⟩ | ⟨middle, rfl, same⟩
    · cases middle with
      | nil =>
        cases same
        simpa using ⟨named, divides⟩
      | cons first middle =>
        cases same
        obtain ⟨otherNamed, notBefore, isAfter⟩ :=
          divideAfter middle other rest ⟨rfl, others, (counted_append size).mp counted⟩
        have isBeyond := divides.2 other (by simp)
        refine ⟨otherNamed, ?_, isAfter⟩
        intro row member otherBeyond
        have lastBeyond := trans _ _ _ isBeyond otherBeyond
        rcases mem_append.mp member with inInit | inRest
        · exact divides.1 row inInit lastBeyond
        · rcases mem_cons.mp inRest with rfl | inMiddle
          · exact irrefl _ lastBeyond
          · exact notBefore row inMiddle otherBeyond
    · cases middle with
      | nil =>
        cases same
        rw [append_nil] at divides
        exact ⟨named, divides⟩
      | cons first middle => simp at size; omega


end Order

section Following

variable {cursor : Option Cursor} {before : Option Key} {items : List Row}

variable (encode key beyond rows) in
theorem listFrom_cases (positive : 0 < limit) (read : readCursor decode cursor = .ok before) :
    listFrom encode decode key beyond rows limit cursor =
        .ok ⟨remaining key beyond rows before, none⟩ ∧
          (remaining key beyond rows before).length ≤ limit ∨
      ∃ init last after, remaining key beyond rows before = init ++ last :: after ∧
        after ≠ [] ∧ init.length + 1 = limit ∧ listFrom encode decode key beyond rows limit cursor =
            (encode (key last)).map fun next => ⟨init ++ [last], some next⟩ := by
  have isPage : listFrom encode decode key beyond rows limit cursor =
      pageOf encode key ((remaining key beyond rows before).take (limit + 1)) limit := by
    rw [listFrom, read]
    rfl
  rw [isPage]
  rcases Nat.lt_or_ge limit (remaining key beyond rows before).length with many | few
  · right
    have division := take_append_drop (limit - 1) (remaining key beyond rows before)
    cases isRest : (remaining key beyond rows before).drop (limit - 1) with
    | nil => have := drop_eq_nil_iff.mp isRest; omega
    | cons last after =>
      have length := congrArg List.length isRest
      rw [length_drop, length_cons] at length
      have followed : after ≠ [] := length_pos_iff.mp (by omega)
      have size : ((remaining key beyond rows before).take (limit - 1)).length + 1 = limit := by
        rw [length_take]
        omega
      rw [isRest] at division
      refine ⟨_, last, after, division.symm, followed, size, ?_⟩
      conv_lhs => rw [← division]
      exact pageOf_append size followed
  · exact .inl ⟨pageOf_of_le few, few⟩

def CursorsRead (encode : Key → Except Error Cursor) (decode : Cursor → Except Error Key)
    (key : Row → Key) (rows : List Row) : Prop :=
  ∀ row ∈ rows, ∀ cursor, encode (key row) = .ok cursor → decode cursor = .ok (key row)

variable {list : Option Cursor → Except Error (Page Row Cursor)}

theorem Follows.exists_page
    (follows : Follows list cursor items) : ∃ page, list cursor = .ok page := by
  cases follows with
  | last listed | more listed _ => exact ⟨_, listed⟩

variable {next : Cursor}

theorem Follows.of_more {rest : List Row} (listed : list cursor = .ok ⟨items, some next⟩)
    (follows : Follows list cursor (items ++ rest)) : Follows list (some next) rest := by
  generalize whole : items ++ rest = all at follows
  cases follows with
  | last other => simp [listed] at other
  | more other following =>
    rw [listed] at other
    cases other
    rwa [append_cancel_left whole]

theorem read_next (codes : CursorsRead encode decode key rows)
    (member : last ∈ remaining key beyond rows before)
    (named : encode (key last) = .ok next) :
    readCursor decode (some next) = .ok (some (key last)) := by
  rw [readCursor, codes last (mem_filter.mp member).1 next named]
  rfl

variable (irrefl : ∀ value, ¬beyond value value)
  (trans : ∀ first second third, beyond first second → beyond second third → beyond first third)
  (codes : CursorsRead encode decode key rows) (positive : 0 < limit)

include trans codes positive

theorem Follows.within (follows : Follows (listFrom encode decode key beyond rows limit) cursor items)
    (read : readCursor decode cursor = .ok before) :
    items ⊆ remaining key beyond rows before ∧
      items.head? = (remaining key beyond rows before).head? := by
  induction follows generalizing before with
  | last listed =>
    rcases listFrom_cases encode key beyond rows positive read with ⟨isPage, _⟩ | ⟨init, last, after, _, _, _, isPage⟩
    · rw [isPage] at listed
      cases listed
      exact ⟨fun _ member => member, rfl⟩
    · rw [isPage] at listed
      cases named : encode (key last) <;> rw [named] at listed <;> cases listed
  | more listed follows ih =>
    rcases listFrom_cases encode key beyond rows positive read with ⟨isPage, _⟩ |
      ⟨init, last, after, isRemaining, _, _, isPage⟩
    · rw [isPage] at listed
      cases listed
    · rw [isPage] at listed
      have member : last ∈ remaining key beyond rows before := by simp [isRemaining]
      cases named : encode (key last) with
      | error failure => rw [named] at listed; cases listed
      | ok next =>
        rw [named] at listed
        cases listed
        have inside := (ih (read_next codes member named)).1
        rw [← remaining_remaining trans member] at inside
        constructor
        · apply append_subset.mpr
          refine ⟨?_, fun row inRest => (mem_filter.mp (inside inRest)).1⟩
          rw [isRemaining]
          intro row inPage
          simp at inPage ⊢
          tauto
        · rw [isRemaining]
          cases init <;> rfl

include irrefl

theorem divides_of_follows (nodup : rows.Nodup)
    (isRemaining : remaining key beyond rows before = init ++ last :: after)
    (named : encode (key last) = .ok next)
    (follows : Follows (listFrom encode decode key beyond rows limit) (some next) after) :
    Divides key beyond init last after := by
  have member : last ∈ remaining key beyond rows before := by simp [isRemaining]
  obtain ⟨inside, sameHead⟩ := follows.within trans codes positive (read_next codes member named)
  have distinct : (init ++ last :: after).Nodup := isRemaining ▸ nodup.filter _
  rw [← remaining_remaining trans member, isRemaining, remaining, filter_append,
    filter_cons_of_neg (by simpa using irrefl _)] at inside sameHead
  constructor
  · intro row inInit isBeyond
    have kept : row ∈ init.filter fun row => (some (key last)).all fun last => beyond last (key row) :=
      mem_filter.mpr ⟨inInit, by simpa using isBeyond⟩
    obtain ⟨first, others, isKept⟩ := exists_cons_of_ne_nil (ne_nil_of_mem kept)
    rw [isKept] at sameHead
    have inAfter : first ∈ after := mem_of_head? sameHead
    have firstIn : first ∈ init :=
      (mem_filter.mp (isKept ▸ mem_cons_self : first ∈ init.filter _)).1
    exact (nodup_append.mp distinct).2.2 first firstIn first (by simp [inAfter]) rfl
  · intro row inAfter
    have inRest := inside inAfter
    rcases mem_append.mp inRest with kept | kept <;> simpa using (mem_filter.mp kept).2

omit codes positive in
theorem remaining_of_divides (isRemaining : remaining key beyond rows before = init ++ last :: after)
    (divides : Divides key beyond init last after) :
    remaining key beyond rows (some (key last)) = after := by
  have member : last ∈ remaining key beyond rows before := by simp [isRemaining]
  rw [← remaining_remaining trans member, isRemaining, remaining, filter_append,
    filter_cons_of_neg (by simpa using irrefl _), filter_eq_nil_iff.mpr,
    filter_eq_self.mpr, nil_append]
  · intro row inAfter
    simpa using divides.2 row inAfter
  · intro row inInit
    simpa using divides.1 row inInit

theorem follows_remaining_iff (nodup : rows.Nodup) (read : readCursor decode cursor = .ok before) :
    Follows (listFrom encode decode key beyond rows limit) cursor (remaining key beyond rows before) ↔
      EndsDivide encode key beyond limit (remaining key beyond rows before) := by
  induction size : (remaining key beyond rows before).length using Nat.strongRecOn
    generalizing cursor before with
  | ind count ih =>
    rcases listFrom_cases encode key beyond rows positive read with ⟨isPage, few⟩ |
      ⟨init, last, after, isRemaining, followed, pageSize, isPage⟩
    · exact iff_of_true (.last isPage) (endsDivide_of_le few)
    · have member : last ∈ remaining key beyond rows before := by simp [isRemaining]
      have shorter : after.length < count := by simp [← size, isRemaining]; omega
      rw [isRemaining, endsDivide_append irrefl trans pageSize followed]
      constructor
      · intro follows
        cases isNamed : encode (key last) with
        | error failure =>
          rw [isNamed] at isPage
          obtain ⟨page, isOk⟩ := follows.exists_page
          cases isPage.symm.trans isOk
        | ok next =>
          rw [isNamed] at isPage
          rw [append_cons] at follows
          have following := follows.of_more isPage
          have divides := divides_of_follows irrefl trans codes positive nodup isRemaining
            isNamed following
          have isAfter := remaining_of_divides irrefl trans isRemaining divides
          have dividesAfter := ih after.length shorter (read_next codes member isNamed)
            (by rw [isAfter])
          rw [isAfter] at dividesAfter
          exact ⟨⟨⟨next, isNamed⟩, divides⟩, dividesAfter.mp following⟩
      · rintro ⟨⟨⟨next, named⟩, divides⟩, dividesAfter⟩
        have isAfter := remaining_of_divides irrefl trans isRemaining divides
        have follows := (ih after.length shorter (read_next codes member named)
          (by rw [isAfter])).mpr (by rwa [isAfter])
        rw [isAfter] at follows
        rw [named] at isPage
        simpa using Follows.more isPage follows

theorem follows_iff (nodup : rows.Nodup) :
    Follows (listFrom encode decode key beyond rows limit) none rows ↔
      EndsDivide encode key beyond limit rows := by
  have whole : remaining key beyond rows none = rows :=
    filter_eq_self.mpr fun _ _ => rfl
  have iff := follows_remaining_iff irrefl trans codes positive nodup
    (rfl : readCursor decode none = .ok none)
  rwa [whole] at iff

end Following

end Listings

end DubEcosystem.CursorPages
