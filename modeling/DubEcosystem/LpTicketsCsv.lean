import DubEcosystem.LpTicketsExport
import DubEcosystem.Rfc4180

/-!
# lp-tickets: the buyers as CSV

One order is one row, and the answers stand in one column for each label.  A text that Excel
could take for a formula gets an apostrophe.
-/

namespace DubEcosystem.LpExport

open List Rfc4180
open LpTickets (LpTicketOrderItem LpTicketOrderStatus)

structure LpTicketAnswer where
  label : String
  value : String

structure LpTicketField where
  label : String

structure OrderColumns where
  quantity : Nat
  amountJpy : Nat
  status : LpTicketOrderStatus
  buyerName : String
  buyerEmail : String
  answers : List LpTicketAnswer
  paymentMethod : Option String
  couponId : Option String
  paidAt : Option String
  refundedAt : Option String
  preview : Bool
  stripeSessionId : Option String

def bom : Char := '\ufeff'

/-- `\s` of a regular expression. -/
def isSpace (c : Char) : Bool :=
  c.toNat ∈ [0x9, 0xa, 0xb, 0xc, 0xd, 0x20, 0xa0, 0x1680, 0x2028, 0x2029, 0x202f, 0x205f, 0x3000,
    0xfeff] || (0x2000 ≤ c.toNat && c.toNat ≤ 0x200a)

def formulaMarks : List Char := ['=', '+', '-', '@', '＝', '＋', '－', '＠']

/-- `FORMULA_LEAD` -/
def formulaLead (text : List Char) : Bool :=
  (text.dropWhile isSpace).head?.any (· ∈ formulaMarks) || text.head?.any (· ∈ ['\t', '\r'])

/-- A value of type `string | number | null`. -/
inductive CsvValue where
  | text (value : String)
  | number (value : Int)
  | null

/-- The value as a cell shows it. -/
def CsvValue.shown : CsvValue → List Char
  | .text value => if formulaLead value.toList then '\'' :: value.toList else value.toList
  | .number value => (toString value).toList
  | .null => []

def csvCell (value : CsvValue) : List Char :=
  if value.shown.any (· ∈ [quote, ',', '\r', '\n']) then
    quote :: (value.shown.flatMap double ++ [quote])
  else value.shown

def row (cells : List CsvValue) : List Char :=
  [','].intercalate (cells.map csvCell)

def LpTicketOrderStatus.text : LpTicketOrderStatus → String
  | .pending => "pending"
  | .paid => "paid"
  | .expired => "expired"
  | .refunded => "refunded"
  | .needsReview => "needs_review"

/-- The ids of orders are ASCII. -/
def orderNumber (orderId : String) : String :=
  .ofList ((orderId.toList.drop (orderId.length - 8)).map Char.toUpper)

def isTestOrder (columns : OrderColumns) : Bool :=
  columns.preview || columns.stripeSessionId.any fun session => session.startsWith "cs_test_"

variable (orders : List (TicketOrderRow OrderColumns))

/-- Configured labels first, then labels only old orders still carry. -/
def answerLabels (fields : List LpTicketField) :
    List String :=
  (fields.map LpTicketField.label ++
    orders.flatMap fun order => order.columns.answers.map LpTicketAnswer.label).eraseDups

def itemText (item : LpTicketOrderItem) : String :=
  item.ticketTypeName ++ (if item.dayLabel = "" then "" else " " ++ item.dayLabel) ++ " x" ++
    toString item.quantity

def nullable (value : Option String) : CsvValue :=
  value.elim .null .text

def headCells (labels : List String) : List CsvValue :=
  (["注文番号", "注文ID", "状態", "テスト", "氏名", "メール", "明細", "枚数", "金額", "決済手段", "クーポンID",
    "作成日時", "支払日時", "返金日時"] ++ labels).map .text

def orderCells (labels : List String) (order : TicketOrderRow OrderColumns) : List CsvValue :=
  let columns := order.columns
  let answers : String → Option String := columns.answers.foldl
    (fun map answer => Function.update map answer.label (some answer.value)) fun _ => none
  [.text (orderNumber order.id), .text order.id, .text (LpTicketOrderStatus.text columns.status),
    .text (if isTestOrder columns then "テスト" else ""), .text columns.buyerName,
    .text columns.buyerEmail, .text (" / ".intercalate (order.items.map itemText)),
    .number columns.quantity, .number columns.amountJpy, nullable columns.paymentMethod,
    nullable columns.couponId, .text order.createdAt, nullable columns.paidAt,
    nullable columns.refundedAt] ++ labels.map fun label => nullable (answers label)

def ordersCsv (fields : List LpTicketField) :
    List Char :=
  let labels := answerLabels orders fields
  bom :: (crlf.intercalate (row (headCells labels) :: orders.map fun order =>
    row (orderCells labels order)) ++ crlf)

theorem field_csvCell (value : CsvValue) : Field (csvCell value) value.shown := by
  unfold csvCell
  split
  · exact .escaped _
  · rename_i isText
    apply Field.nonEscaped
    intro c member special
    exact isText (any_eq_true.mpr ⟨c, member, decide_eq_true special⟩)

/-- No text cell is one that Excel could take for a formula. -/
theorem CsvValue.shown_safe (text : String) :
    ∀ c ∈ ((CsvValue.text text).shown.dropWhile isSpace).head?, c ∉ formulaMarks := by
  intro c isHead isMark
  rw [CsvValue.shown] at isHead
  split at isHead
  · have isApostrophe : c = '\'' := by
      simpa [dropWhile_cons, show isSpace '\'' = false by decide] using isHead.symm
    subst isApostrophe
    exact absurd isMark (by decide)
  · rename_i noLead
    apply noLead
    rw [formulaLead, Option.mem_def.mp isHead]
    simp [isMark]

theorem intercalate_append (first : List Char) (rows : List (List Char)) :
    crlf.intercalate (first :: rows) ++ crlf = (first :: rows).flatMap (· ++ crlf) := by
  induction rows generalizing first with
  | nil => simp [intercalate]
  | cons next rows ih =>
    rw [flatMap_cons, ← ih next]
    simp [intercalate]

/-- The mark may stand behind a line break, and the cell is then quoted. -/
example : csvCell (.text "\n=A1") = ['\x22', '\'', '\n', '=', 'A', '1', '\x22'] := by decide

end DubEcosystem.LpExport
