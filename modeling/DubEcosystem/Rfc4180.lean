import Mathlib.Data.List.Basic

/-!
# Comma-separated values

The grammar of RFC 4180 over all of Unicode: a record ends with CRLF, and a field is text or
stands between quotes.
-/

namespace DubEcosystem.Rfc4180

open List

def quote : Char := '\x22'

def crlf : List Char := ['\r', '\n']

/-- `TEXTDATA`, with every character that the grammar has no other use for. -/
def IsTextData (c : Char) : Prop :=
  c ∉ [quote, ',', '\r', '\n']

instance (c : Char) : Decidable (IsTextData c) :=
  inferInstanceAs (Decidable (c ∉ _))

/-- `2DQUOTE` stands for a quote. -/
def double (c : Char) : List Char :=
  if c = quote then [quote, quote] else [c]

/-- `field`, as its text and its value. -/
inductive Field : List Char → List Char → Prop where
  | nonEscaped (value : List Char) (isText : ∀ c ∈ value, IsTextData c) : Field value value
  | escaped (value : List Char) : Field (quote :: (value.flatMap double ++ [quote])) value

/-- Where a reader stands: before a field, in one, in a quoted one, behind a quote in it, or
behind the CR of a CRLF. -/
inductive Place where
  | start
  | plain
  | quoted
  | closing
  | ending
  deriving DecidableEq

structure Reader where
  place : Place
  field : List Char
  record : List (List Char)
  records : List (List (List Char))

def Reader.step (reader : Reader) (c : Char) : Option Reader :=
  match reader.place with
  | .quoted =>
    if c = quote then some { reader with place := .closing }
    else some { reader with field := reader.field ++ [c] }
  | .ending =>
    if c = '\n' then some ⟨.start, [], [], reader.records ++ [reader.record]⟩ else none
  | place =>
    if c = ',' then some ⟨.start, [], reader.record ++ [reader.field], reader.records⟩
    else if c = '\r' then some ⟨.ending, [], reader.record ++ [reader.field], reader.records⟩
    else if c = quote then
      match place with
      | .start => some { reader with place := .quoted }
      | .closing => some { reader with place := .quoted, field := reader.field ++ [c] }
      | _ => none
    else if c = '\n' ∨ place = .closing then none
    else some { reader with place := .plain, field := reader.field ++ [c] }

/-- No record follows a CRLF at the end of the text. -/
def Reader.finish (reader : Reader) : Option (List (List (List Char))) :=
  match reader.place, reader.record with
  | .quoted, _ | .ending, _ => none
  | .start, [] => some reader.records
  | _, record => some (reader.records ++ [record ++ [reader.field]])

def parse (text : List Char) : Option (List (List (List Char))) :=
  (text.foldlM Reader.step ⟨.start, [], [], []⟩).bind Reader.finish

/-- A field ends at a comma or a CRLF. -/
def Place.IsEnd (place : Place) : Prop :=
  place ≠ .quoted ∧ place ≠ .ending

section Fields

variable {record : List (List Char)} {records : List (List (List Char))}

variable {place : Place}

theorem foldlM_text (inField : place = .start ∨ place = .plain)
    (field value : List Char) (isText : ∀ c ∈ value, IsTextData c) :
    ∃ last : Place, last.IsEnd ∧ value.foldlM Reader.step ⟨place, field, record, records⟩ =
      some ⟨last, field ++ value, record, records⟩ := by
  induction value generalizing place field with
  | nil => exact ⟨place, by rcases inField with rfl | rfl <;> simp [Place.IsEnd], by simp⟩
  | cons c value ih =>
    obtain ⟨isChar, rest⟩ := forall_mem_cons.mp isText
    obtain ⟨noQuote, noComma, noReturn, noFeed⟩ : c ≠ quote ∧ c ≠ ',' ∧ c ≠ '\r' ∧ c ≠ '\n' := by
      simpa [IsTextData] using isChar
    obtain ⟨last, isEnd, run⟩ := ih (.inr rfl) (field ++ [c]) rest
    use last, isEnd
    rcases inField with rfl | rfl <;>
      simp [Reader.step, noQuote, noComma, noReturn, noFeed, run]

theorem foldlM_double (field value : List Char) :
    (value.flatMap double).foldlM Reader.step ⟨.quoted, field, record, records⟩ =
      some ⟨.quoted, field ++ value, record, records⟩ := by
  induction value generalizing field with
  | nil => simp
  | cons c value ih =>
    by_cases isQuote : c = quote
    · subst isQuote
      simp [double, Reader.step, ih, show quote ≠ ',' ∧ quote ≠ '\r' by decide]
    · simp [double, Reader.step, isQuote, ih]

theorem foldlM_field {text value : List Char} (isField : Field text value) :
    ∃ last : Place, last.IsEnd ∧ text.foldlM Reader.step ⟨.start, [], record, records⟩ =
      some ⟨last, value, record, records⟩ := by
  cases isField with
  | nonEscaped _ isText => exact foldlM_text (.inl rfl) [] text isText
  | escaped =>
    use .closing, by simp [Place.IsEnd]
    simp [foldlM_append, Reader.step, foldlM_double, show quote ≠ ',' ∧ quote ≠ '\r' by decide]

theorem Reader.step_comma (isEnd : place.IsEnd) (value : List Char) :
    Reader.step ⟨place, value, record, records⟩ ',' =
      some ⟨.start, [], record ++ [value], records⟩ := by
  cases place <;> simp_all [Place.IsEnd, Reader.step]

theorem foldlM_crlf (isEnd : place.IsEnd) (value : List Char) :
    crlf.foldlM Reader.step ⟨place, value, record, records⟩ =
      some ⟨.start, [], [], records ++ [record ++ [value]]⟩ := by
  cases place <;> simp_all [Place.IsEnd, crlf, Reader.step]

end Fields

variable {Cell : Type} {text value : Cell → List Char}
  (isField : ∀ cell, Field (text cell) (value cell))

include isField

theorem foldlM_record (cell : Cell) (cells : List Cell) (record : List (List Char))
    (records : List (List (List Char))) :
    ([','].intercalate ((cell :: cells).map text) ++ crlf).foldlM Reader.step
        ⟨.start, [], record, records⟩ =
      some ⟨.start, [], [], records ++ [record ++ (cell :: cells).map value]⟩ := by
  induction cells generalizing cell record with
  | nil =>
    obtain ⟨last, isEnd, run⟩ := @foldlM_field record records _ _ (isField cell)
    simp [intercalate, foldlM_append, run, foldlM_crlf isEnd]
  | cons next cells ih =>
    obtain ⟨last, isEnd, run⟩ := @foldlM_field record records _ _ (isField cell)
    have tail := ih next (record ++ [value cell])
    simp only [map_cons, intercalate, intersperse, flatten_cons] at tail ⊢
    simp [foldlM_append, run, Reader.step_comma isEnd] at tail ⊢
    simpa using tail

theorem parse_records {rows : List (List Cell)} (nonempty : ∀ row ∈ rows, row ≠ []) :
    parse (rows.flatMap fun row => [','].intercalate (row.map text) ++ crlf) =
      some (rows.map (map value)) := by
  have run : ∀ records, (rows.flatMap fun row => [','].intercalate (row.map text) ++ crlf).foldlM
      Reader.step ⟨.start, [], [], records⟩ =
        some ⟨.start, [], [], records ++ rows.map (map value)⟩ := by
    induction rows with
    | nil => simp
    | cons row rows ih =>
      intro records
      obtain ⟨isRow, rest⟩ := forall_mem_cons.mp nonempty
      obtain ⟨cell, cells, rfl⟩ := exists_cons_of_ne_nil isRow
      rw [flatMap_cons, foldlM_append, foldlM_record isField, Option.bind_eq_bind,
        Option.bind_some, ih rest]
      simp
  simp [parse, run, Reader.finish]

end DubEcosystem.Rfc4180
