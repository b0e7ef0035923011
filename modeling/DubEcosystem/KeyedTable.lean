import Mathlib.Algebra.GroupWithZero.Nat
import Mathlib.Data.List.Nodup
import Mathlib.Algebra.Order.BigOperators.Group.List
import Mathlib.Algebra.Order.Group.Nat

/-!
# Tables with a primary key

A table is a list of rows no two of which share a key, so that a duplicate key
cannot be built.  The operations are the statements a relational store offers:
select one row, insert, update where, delete where, and sums over all rows.
-/

namespace DubEcosystem

@[ext]
structure KeyedTable {Row Key : Type} (key : Row → Key) where
  rows : List Row
  keysNodup : (rows.map key).Nodup

namespace KeyedTable

variable {Row Key : Type} {key : Row → Key}

instance : Membership Row (KeyedTable key) where
  mem table row := row ∈ table.rows

variable {table : KeyedTable key} {selected : Row → Bool} {change : Row → Row}
  {keepsKey : ∀ row, key (change row) = key row} {row : Row}

theorem mem_def : row ∈ table ↔ row ∈ table.rows :=
  Iff.rfl

theorem eq_of_key_eq {first second : Row} (firstMem : first ∈ table) (secondMem : second ∈ table)
    (keyEq : key first = key second) : first = second :=
  List.inj_on_of_nodup_map table.keysNodup firstMem secondMem keyEq

/-- The table without rows. -/
def empty : KeyedTable key := ⟨[], .nil⟩

@[simp]
theorem notMem_empty (row : Row) : row ∉ (empty : KeyedTable key) :=
  List.not_mem_nil

def map (table : KeyedTable key) (change : Row → Row)
    (keepsKey : ∀ row, key (change row) = key row) : KeyedTable key where
  rows := table.rows.map change
  keysNodup := by
    have sameKeys : (table.rows.map change).map key = table.rows.map key := by
      rw [List.map_map]
      exact List.map_congr_left fun row _ => keepsKey row
    rw [sameKeys]
    exact table.keysNodup

@[simp]
theorem mem_map : row ∈ table.map change keepsKey ↔ ∃ old ∈ table, change old = row :=
  List.mem_map

@[simp]
theorem map_self (table : KeyedTable key) (keepsKey : ∀ row, key row = key row) :
    table.map (fun row => row) keepsKey = table := by
  cases table
  simp [map]

/-- `UPDATE ... SET change WHERE selected`; the key is never assigned. -/
def update (table : KeyedTable key) (selected : Row → Bool)
    (change : Row → Row) (keepsKey : ∀ row, key (change row) = key row) :
    KeyedTable key :=
  table.map (fun row => if selected row then change row else row) (by
    intro row
    by_cases chosen : selected row = true <;> simp [chosen, keepsKey])

@[simp]
theorem mem_update : row ∈ table.update selected change keepsKey ↔
      ∃ old ∈ table, (if selected old then change old else old) = row :=
  mem_map

theorem update_unselected (none : ∀ row ∈ table, selected row = false) :
    table.update selected change keepsKey = table := by
  ext1
  have same : table.rows.map (fun row => if selected row then change row else row) =
      table.rows.map fun row => row :=
    List.map_congr_left fun row member => by simp [none row member]
  simpa [update, map] using same

/-- Whether an update would change any row (`meta.changes > 0`). -/
def selects (table : KeyedTable key) (selected : Row → Bool) : Bool :=
  table.rows.any selected

@[simp]
theorem selects_eq_true : table.selects selected = true ↔ ∃ row ∈ table, selected row = true :=
  List.any_eq_true

/-- `DELETE ... WHERE selected`. -/
def deleteWhere (table : KeyedTable key) (selected : Row → Bool) : KeyedTable key where
  rows := table.rows.filter fun row => !selected row
  keysNodup :=
    table.keysNodup.sublist (List.filter_sublist.map key)

@[simp]
theorem mem_deleteWhere :
    row ∈ table.deleteWhere selected ↔ row ∈ table ∧ selected row = false := by
  simp [deleteWhere, mem_def]

section Lookup

variable [DecidableEq Key] {k : Key}

/-- `SELECT ... WHERE key = k`. -/
def find? (table : KeyedTable key) (k : Key) : Option Row :=
  table.rows.find? fun row => key row = k

theorem find?_eq_some : table.find? k = some row ↔ row ∈ table ∧ key row = k := by
  constructor
  · intro found
    exact ⟨List.mem_of_find?_eq_some found, by
      simpa using List.find?_some found⟩
  · rintro ⟨member, rfl⟩
    cases found : table.find? (key row) with
    | none =>
      have missing := List.find?_eq_none.mp found row member
      simp at missing
    | some other =>
      have otherMem : other ∈ table := List.mem_of_find?_eq_some found
      have otherKey : key other = key row := by
        simpa using List.find?_some found
      rw [eq_of_key_eq otherMem member otherKey]

theorem find?_eq_none : table.find? k = none ↔ ∀ row ∈ table, key row ≠ k := by
  simp [find?, mem_def]

/-- Tables with the same rows under a key are searched for it alike. -/
theorem find?_congr {first second : KeyedTable key}
    (same : ∀ row, key row = k → (row ∈ first ↔ row ∈ second)) :
    first.find? k = second.find? k := by
  ext row
  rw [find?_eq_some, find?_eq_some]
  exact and_congr_left fun isKey => same row isKey

theorem find?_update_of_ne (others : ∀ row, selected row = true → key row ≠ k) :
    (table.update selected change keepsKey).find? k = table.find? k := by
  apply find?_congr
  intro row isKey
  rw [mem_update]
  constructor
  · rintro ⟨old, member, rfl⟩
    split
    · rename_i chosen
      rw [if_pos chosen, keepsKey] at isKey
      exact absurd isKey (others old chosen)
    · exact member
  · intro member
    refine ⟨row, member, ?_⟩
    rw [if_neg]
    exact fun chosen => others row chosen isKey

/-- `INSERT`; `none` when the primary key is taken. -/
def insert? (table : KeyedTable key) (row : Row) : Option (KeyedTable key) :=
  if taken : key row ∈ table.rows.map key then none
  else some
    { rows := table.rows ++ [row]
      keysNodup := by
        rw [List.map_append, List.nodup_append]
        refine ⟨table.keysNodup, by simp, ?_⟩
        intro first firstMem second secondMem equal
        simp only [List.map_cons, List.map_nil, List.mem_singleton] at secondMem
        exact taken (secondMem ▸ equal ▸ firstMem) }

theorem insert?_eq_some {inserted : KeyedTable key} (success : table.insert? row = some inserted) :
    inserted.rows = table.rows ++ [row] ∧ ∀ other ∈ table, key other ≠ key row := by
  unfold insert? at success
  split at success
  · cases success
  · rename_i free
    cases success
    refine ⟨rfl, ?_⟩
    intro other member equal
    exact free (equal ▸ List.mem_map_of_mem member)

theorem insert?_eq_none : table.insert? row = none ↔ ∃ other ∈ table, key other = key row := by
  unfold insert?
  split
  · rename_i taken
    simpa [mem_def] using taken
  · rename_i free
    simpa [mem_def] using free

theorem mem_insert? {inserted : KeyedTable key} {other : Row}
    (success : table.insert? row = some inserted) :
    other ∈ inserted ↔ other ∈ table ∨ other = row := by
  rw [mem_def, (insert?_eq_some success).1]
  simp [mem_def]

/-- `INSERT OR IGNORE`. -/
def insertOrIgnore (table : KeyedTable key) (row : Row) : KeyedTable key :=
  (table.insert? row).getD table

theorem mem_insertOrIgnore {other : Row} : other ∈ table.insertOrIgnore row ↔ other ∈ table ∨
        (other = row ∧ ∀ present ∈ table, key present ≠ key row) := by
  unfold insertOrIgnore
  cases inserted : table.insert? row with
  | none =>
    obtain ⟨present, member, taken⟩ := insert?_eq_none.mp inserted
    constructor
    · exact Or.inl
    · rintro (old | ⟨-, free⟩)
      · exact old
      · exact (free present member taken).elim
  | some extended =>
    rw [Option.getD_some, mem_insert? inserted]
    have free := (insert?_eq_some inserted).2
    exact or_congr_right (and_iff_left free).symm

theorem find?_insertOrIgnore_of_ne
    (other : key row ≠ k) : (table.insertOrIgnore row).find? k = table.find? k := by
  apply find?_congr
  intro found isKey
  rw [mem_insertOrIgnore]
  constructor
  · rintro (member | ⟨rfl, -⟩)
    · exact member
    · exact absurd isKey other
  · exact .inl

theorem mem_of_mem_foldl_insertOrIgnore {rows : List Row}
    (member : row ∈ rows.foldl insertOrIgnore table) :
    row ∈ table ∨ row ∈ rows := by
  induction rows generalizing table with
  | nil => exact .inl member
  | cons head tail ih =>
    rcases ih member with inTable | inTail
    · rcases mem_insertOrIgnore.mp inTable with old | ⟨rfl, -⟩
      · exact .inl old
      · exact .inr (.head _)
    · exact .inr (List.mem_cons_of_mem head inTail)

theorem exists_mem_insertOrIgnore {other : Row} (given : other ∈ table ∨ other = row) :
    ∃ found ∈ table.insertOrIgnore row, key found = key other := by
  rcases given with old | rfl
  · exact ⟨other, mem_insertOrIgnore.mpr (.inl old), rfl⟩
  · by_cases taken : ∃ found ∈ table, key found = key other
    · obtain ⟨found, foundMem, same⟩ := taken
      exact ⟨found, mem_insertOrIgnore.mpr (.inl foundMem), same⟩
    · push Not at taken
      exact ⟨other, mem_insertOrIgnore.mpr (.inr ⟨rfl, taken⟩), rfl⟩

theorem exists_mem_foldl_insertOrIgnore {rows : List Row} (given : row ∈ table ∨ row ∈ rows) :
    ∃ found ∈ rows.foldl insertOrIgnore table, key found = key row := by
  induction rows generalizing table row with
  | nil => exact ⟨row, given.resolve_right List.not_mem_nil, rfl⟩
  | cons head tail ih =>
    by_cases inTail : row ∈ tail
    · exact ih (.inr inTail)
    · have first : row ∈ table ∨ row = head := by
        rcases given with old | listed
        · exact .inl old
        · exact .inr ((List.mem_cons.mp listed).resolve_right inTail)
      obtain ⟨inserted, insertedMem, same⟩ := exists_mem_insertOrIgnore first
      obtain ⟨found, foundMem, sameFound⟩ := ih (.inl insertedMem)
      exact ⟨found, foundMem, sameFound.trans same⟩

end Lookup

/-- `SUM(weight)` over all rows. -/
def total (table : KeyedTable key) (weight : Row → Nat) : Nat :=
  (table.rows.map weight).sum

theorem total_le_total {first second : Row → Nat} (le : ∀ row ∈ table, first row ≤ second row) :
    table.total first ≤ table.total second :=
  List.sum_le_sum le

theorem total_insert? [DecidableEq Key] {inserted : KeyedTable key}
    (success : table.insert? row = some inserted)
    (weight : Row → Nat) :
    inserted.total weight = table.total weight + weight row := by
  simp [total, (insert?_eq_some success).1]

theorem total_map (table : KeyedTable key) (change : Row → Row)
    (keepsKey : ∀ row, key (change row) = key row) (weight : Row → Nat) :
    (table.map change keepsKey).total weight = table.total fun row => weight (change row) := by
  simp [total, map, List.map_map, Function.comp_def]

/-- A row's share can be taken out of a sum: the rest is the sum over the other
keys. -/
theorem total_eq_add_others [DecidableEq Key] (member : row ∈ table) (weight : Row → Nat) :
    table.total weight = weight row +
        table.total fun other => if key other = key row then 0 else weight other := by
  obtain ⟨before, after, split⟩ := List.append_of_mem member
  have nodup := table.keysNodup
  rw [split, List.map_append, List.map_cons, List.nodup_append, List.nodup_cons] at nodup
  obtain ⟨-, ⟨notAfter, -⟩, apart⟩ := nodup
  have beforeEq : before.map (fun other =>
      if key other = key row then 0 else weight other) = before.map weight := by
    apply List.map_congr_left
    intro other otherMem
    exact if_neg (apart _ (List.mem_map_of_mem otherMem) _ (by simp))
  have afterEq : after.map (fun other =>
      if key other = key row then 0 else weight other) = after.map weight := by
    apply List.map_congr_left
    intro other otherMem
    refine if_neg fun equal => notAfter ?_
    exact equal ▸ List.mem_map_of_mem otherMem
  simp only [total, split, List.map_append, List.map_cons, List.sum_append,
    List.sum_cons, beforeEq, afterEq, if_true]
  omega

end KeyedTable

end DubEcosystem
