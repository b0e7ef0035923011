import Mathlib.Data.List.TakeDrop
import Mathlib.Data.Prod.Lex
import DubEcosystem.KeysetPages
import DubEcosystem.LpTicketsTypes

/-!
# lp-tickets: the orders of an export

An export reads the orders page by page, each page behind the last row of the one before.  The
cursor between two pages is one text, and the lines of a page come with a second query.
-/

namespace DubEcosystem.LpExport

open List KeysetPages Function Option
open LpTickets (LpTicketOrderItem)

variable {Columns : Type}

/-- A row of `lp_ticket_orders`, with the columns that no listing reads as `columns`. -/
structure TicketOrderDbRow (Columns : Type) where
  id : String
  site : String
  createdAt : String
  columns : Columns

structure TicketItemDbRow where
  orderId : String
  item : LpTicketOrderItem

structure TicketOrderRow (Columns : Type) extends TicketOrderDbRow Columns where
  items : List LpTicketOrderItem

/-- The two tables.  The lines are in the order of their `rowid`, in which they were inserted. -/
structure Store (Columns : Type) where
  orders : List (TicketOrderDbRow Columns)
  items : List TicketItemDbRow

def lpPublishSite : String :=
  "hokuriku-it-conf.com"

def exportPage : Nat := 1000

/-- `ORDER BY created_at, id` -/
def TicketOrderDbRow.key (row : TicketOrderDbRow Columns) : String ×ₗ String :=
  toLex (row.createdAt, row.id)

def parseCursor (raw : String) : Option (String × String) :=
  match raw.toList.span (· != '~') with
  | (_, []) => none
  | (day, _ :: id) => if day = [] then none else some (.ofList day, .ofList id)

def readCursor (cursor : Option String) : Option (String × String) :=
  cursor.bind fun raw => if raw = "" then none else parseCursor raw

/-- `created_at > ? OR (created_at = ? AND id > ?)`, where there is a cursor. -/
def isAfter (cursor : Option (String × String)) (row : TicketOrderDbRow Columns) : Bool :=
  match cursor with
  | none => true
  | some (day, id) => day < row.createdAt || (row.createdAt = day && id < row.id)

def selectPage (store : Store Columns) (site : String) (cursor : Option (String × String))
    (limit : Nat) : List (TicketOrderDbRow Columns) :=
  ((store.orders.filter fun row => row.site = site && isAfter cursor row).insertionSort
    fun first second => first.key ≤ second.key).take limit

variable (byOrder : String → Option (List LpTicketOrderItem))

def pushItem (row : TicketItemDbRow) : String → Option (List LpTicketOrderItem) :=
  match byOrder row.orderId with
  | some list => update byOrder row.orderId (some (list ++ [row.item]))
  | none => update byOrder row.orderId (some [row.item])

def listOrdersAscending (store : Store Columns) (site : String) (cursor : Option String)
    (limit : Nat) : List (TicketOrderRow Columns) :=
  let after := readCursor cursor
  let rows := selectPage store site after limit
  let items := (store.items.filter fun item =>
      (selectPage store site after limit).any (·.id = item.orderId)).insertionSort
    fun first second => first.orderId ≤ second.orderId
  let byOrder := items.foldl pushItem fun _ => none
  rows.map fun row => { row with items := (byOrder row.id).getD [] }

/-- The pages from a cursor on.  The loop has no bound of its own. -/
def allOrdersFrom (store : Store Columns) : Nat → Option String → List (TicketOrderRow Columns) →
    Option (List (TicketOrderRow Columns))
  | 0, _, _ => none
  | fuel + 1, cursor, out =>
    let page := listOrdersAscending store lpPublishSite cursor exportPage
    if page.length < exportPage then some (out ++ page)
    else page.getLast?.bind fun last =>
      allOrdersFrom store fuel (some (last.createdAt ++ "~" ++ last.id)) (out ++ page)

def allOrders (store : Store Columns) (fuel : Nat) : Option (List (TicketOrderRow Columns)) :=
  allOrdersFrom store fuel none []

theorem pushItem_getD (row : TicketItemDbRow) (id : String) : (pushItem byOrder row id).getD [] =
      (byOrder id).getD [] ++ if row.orderId = id then [row.item] else [] := by
  unfold pushItem
  by_cases same : row.orderId = id
  · subst same
    cases byOrder row.orderId <;> simp
  · cases byOrder row.orderId <;> simp [update_of_ne (Ne.symm same), same]

variable (items : List TicketItemDbRow)

theorem foldl_pushItem (byOrder : String → Option (List LpTicketOrderItem)) (id : String) :
    (items.foldl pushItem byOrder id).getD [] =
      (byOrder id).getD [] ++ (items.filter (·.orderId = id)).map TicketItemDbRow.item := by
  induction items generalizing byOrder with
  | nil => simp
  | cons row items ih =>
    rw [foldl_cons, ih, pushItem_getD, append_assoc]
    by_cases same : row.orderId = id <;> simp [same]

/-- Sorting by the order leaves the lines of one order as they stand. -/
theorem filter_insertionSort (id : String) :
    (items.insertionSort fun first second => first.orderId ≤ second.orderId).filter
      (·.orderId = id) = items.filter (·.orderId = id) := by
  have equal : (items.filter (·.orderId = id)).Pairwise
      fun first second => first.orderId ≤ second.orderId := by
    apply pairwise_of_forall_mem_list
    intro first firstMem second secondMem
    rw [of_decide_eq_true (mem_filter.mp firstMem).2, of_decide_eq_true (mem_filter.mp secondMem).2]
  have kept := (sublist_insertionSort equal filter_sublist).filter (·.orderId = id)
  simp only [List.filter_filter, Bool.and_self] at kept
  apply (kept.eq_of_length _).symm
  exact ((perm_insertionSort _ items).symm.filter _).length_eq

/-- The lines of an order, in the order in which they were inserted. -/
def Store.linesOf (store : Store Columns) (id : String) : List LpTicketOrderItem :=
  (store.items.filter (·.orderId = id)).map TicketItemDbRow.item

def Store.withLines (store : Store Columns) (row : TicketOrderDbRow Columns) :
    TicketOrderRow Columns :=
  { row with items := store.linesOf row.id }

/-- The orders of the site, in the order of an export. -/
def Store.exported (store : Store Columns) : List (TicketOrderDbRow Columns) :=
  (store.orders.filter (·.site = lpPublishSite)).insertionSort
    fun first second => first.key ≤ second.key

/-- No cursor divides the `createdAt` of a row from its id at another place. -/
structure Store.Readable (store : Store Columns) : Prop where
  distinct : (store.orders.map TicketOrderDbRow.id).Nodup
  nonempty : ∀ row ∈ store.orders, row.createdAt ≠ ""
  noTilde : ∀ row ∈ store.orders, '~' ∉ row.createdAt.toList

theorem listOrdersAscending_eq (store : Store Columns) (site : String) (cursor : Option String)
    (limit : Nat) : listOrdersAscending store site cursor limit =
      (selectPage store site (readCursor cursor) limit).map store.withLines := by
  unfold listOrdersAscending
  apply map_congr_left
  intro row member
  have ofPage : ∀ item : TicketItemDbRow, item.orderId = row.id →
      (selectPage store site (readCursor cursor) limit).any (·.id = item.orderId) = true := by
    intro item isLine
    exact any_eq_true.mpr ⟨row, member, by simpa using isLine.symm⟩
  rw [foldl_pushItem, filter_insertionSort, List.filter_filter, Store.withLines, Store.linesOf]
  congr 2
  rw [getD_none, nil_append]
  congr 1
  apply filter_congr
  intro item _
  by_cases isLine : item.orderId = row.id
  · simpa [isLine] using ofPage item isLine
  · simp [isLine]

theorem parseCursor_append {day id : String} (nonempty : day ≠ "") (noTilde : '~' ∉ day.toList) :
    parseCursor (day ++ "~" ++ id) = some (day, id) := by
  have notTilde : ∀ c ∈ day.toList, (c != '~') = true := by
    intro c member
    exact bne_iff_ne.mpr fun same => noTilde (same ▸ member)
  have split : (day ++ "~" ++ id).toList.span (· != '~') = (day.toList, '~' :: id.toList) := by
    rw [span_eq_takeWhile_dropWhile, String.toList_append, String.toList_append, append_assoc,
      takeWhile_append_of_pos notTilde, dropWhile_append_of_pos notTilde]
    simp
  have chars : day.toList ≠ [] := by simpa using nonempty
  rw [parseCursor, split]
  simp [chars]

theorem readCursor_of_row {row : TicketOrderDbRow Columns} (nonempty : row.createdAt ≠ "")
    (noTilde : '~' ∉ row.createdAt.toList) :
    readCursor (some (row.createdAt ++ "~" ++ row.id)) = some (row.createdAt, row.id) := by
  have isText : row.createdAt ++ "~" ++ row.id ≠ "" := by
    intro same
    simpa using congrArg String.toList same
  rw [readCursor, bind_some, if_neg isText, parseCursor_append nonempty noTilde]

theorem isAfter_row (last row : TicketOrderDbRow Columns) :
    isAfter (some (last.createdAt, last.id)) row = decide (last.key < row.key) := by
  apply Bool.eq_iff_iff.mpr
  simp only [isAfter, TicketOrderDbRow.key, Prod.Lex.toLex_lt_toLex, Bool.or_eq_true,
    Bool.and_eq_true, decide_eq_true_eq]
  exact or_congr_right (and_congr_left' eq_comm)

variable {store : Store Columns}

theorem inOrder_sorted (distinct : (store.orders.map TicketOrderDbRow.id).Nodup)
    (selected : TicketOrderDbRow Columns → Bool) : InOrder TicketOrderDbRow.key
      ((store.orders.filter selected).insertionSort fun first second => first.key ≤ second.key) := by
  apply inOrder_insertionSort
  apply Nodup.of_map fun key => (ofLex key).2
  rw [List.map_map]
  exact distinct.sublist (filter_sublist.map _)

/-- A page is cut from the orders that the cursor leaves of the whole export. -/
theorem selectPage_eq (distinct : (store.orders.map TicketOrderDbRow.id).Nodup)
    (cursor : Option (String × String)) (limit : Nat) :
    selectPage store lpPublishSite cursor limit =
      (store.exported.filter (isAfter cursor)).take limit := by
  rw [selectPage]
  congr 1
  apply (inOrder_sorted distinct _).eq_of_perm
  · exact List.Pairwise.sublist filter_sublist (inOrder_sorted distinct _)
  · apply (perm_insertionSort _ _).trans
    have ofSite := ((perm_insertionSort (fun first second => first.key ≤ second.key)
      (store.orders.filter (·.site = lpPublishSite))).filter (isAfter cursor)).symm
    rw [List.filter_filter] at ofSite
    simpa only [Store.exported, Bool.and_comm] using ofSite

theorem allOrdersFrom_eq (readable : store.Readable) {fuel : Nat} {cursor : Option String}
    {before rest : List (TicketOrderDbRow Columns)} (split : store.exported = before ++ rest)
    (isRest : store.exported.filter (isAfter (readCursor cursor)) = rest)
    (enough : rest.length < fuel) (out : List (TicketOrderRow Columns)) :
    allOrdersFrom store fuel cursor out = some (out ++ rest.map store.withLines) := by
  induction fuel generalizing cursor before rest out with
  | zero => omega
  | succ fuel ih =>
    rw [allOrdersFrom, listOrdersAscending_eq, selectPage_eq readable.distinct, isRest]
    rcases Nat.lt_or_ge rest.length exportPage with few | many
    · rw [take_of_length_le few.le, if_pos (by simpa using few)]
    · have size : (rest.take exportPage).length = exportPage := length_take_of_le many
      have nonempty : rest.take exportPage ≠ [] := ne_nil_of_length_pos (by rw [size]; decide)
      obtain ⟨init, last, isPage⟩ := eq_nil_or_concat' _ |>.resolve_left nonempty
      have division : rest = init ++ last :: rest.drop exportPage := by
        rw [append_cons, ← isPage, take_append_drop]
      have split' : store.exported = (before ++ init) ++ last :: rest.drop exportPage := by
        rw [split, append_assoc, ← division]
      have member : last ∈ store.orders := by
        have inExport : last ∈ store.exported := by simp [split']
        exact (mem_filter.mp ((perm_insertionSort _ _).mem_iff.mp inExport)).1
      have isNext : store.exported.filter (isAfter (readCursor (some
          (last.createdAt ++ "~" ++ last.id)))) = rest.drop exportPage := by
        rw [readCursor_of_row (readable.nonempty last member) (readable.noTilde last member),
          funext (isAfter_row last), split']
        exact InOrder.filter_beyond (split' ▸ inOrder_sorted readable.distinct _)
      have shorter : (rest.drop exportPage).length < fuel := by
        rw [length_drop]
        have positive : 0 < exportPage := by decide
        omega
      rw [if_neg (by rw [length_map, size]; exact lt_irrefl _), isPage, map_append, ← map_append,
        map_append, map_singleton, ← append_assoc, getLast?_concat, bind_some]
      rw [append_cons] at split'
      refine (ih split' isNext shorter _).trans ?_
      conv_rhs => rw [division]
      simp

/-- Every order of the site is exported once, with its lines, in the order of the export. -/
theorem allOrders_complete (readable : store.Readable) :
    ∃ rows, (∀ fuel, store.orders.length < fuel → allOrders store fuel = some rows) ∧
      rows.Perm ((store.orders.filter (·.site = lpPublishSite)).map store.withLines) ∧
      rows.Pairwise fun first second =>
        first.toTicketOrderDbRow.key < second.toTicketOrderDbRow.key := by
  refine ⟨store.exported.map store.withLines, ?_, (perm_insertionSort _ _).map _, ?_⟩
  · intro fuel enough
    have few : store.exported.length ≤ store.orders.length := by
      rw [Store.exported, length_insertionSort]
      exact length_filter_le _ _
    have whole : store.exported.filter (isAfter (readCursor none)) = store.exported :=
      filter_eq_self.mpr fun _ _ => rfl
    exact allOrdersFrom_eq readable (nil_append _).symm whole (few.trans_lt enough) []
  · exact pairwise_map.mpr (inOrder_sorted readable.distinct _)

/-- Two orders of one instant, one with a cursor's mark in its id. -/
def twoOrders : Store Unit where
  orders := [⟨"b~1", lpPublishSite, "2026-06-01", ()⟩, ⟨"a", lpPublishSite, "2026-06-01", ()⟩]
  items := [⟨"a", ⟨"day", "Day", "1", 1000, 2⟩⟩]

theorem allOrders_complete_twoOrders :
    ∃ rows, (∀ fuel, 2 < fuel → allOrders twoOrders fuel = some rows) ∧
      rows.Perm ((twoOrders.orders.filter (·.site = lpPublishSite)).map twoOrders.withLines) ∧
      rows.Pairwise fun first second =>
        first.toTicketOrderDbRow.key < second.toTicketOrderDbRow.key :=
  @allOrders_complete Unit twoOrders ⟨by decide, by decide, by decide⟩

end DubEcosystem.LpExport
