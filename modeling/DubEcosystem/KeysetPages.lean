import Mathlib.Data.List.Sort

/-!
# Pages of a listing in the order of its keys

A listing is in the strict order of its keys, and a page is its first rows after a cursor.
What a page holds is then decided by its last key.
-/

namespace DubEcosystem.KeysetPages

open List

variable {Row Key : Type} [LinearOrder Key] {key : Row → Key} {rows : List Row}

def InOrder (key : Row → Key) (rows : List Row) : Prop :=
  rows.Pairwise fun first second => key first < key second

section

variable (inOrder : InOrder key rows)
include inOrder

theorem InOrder.nodup : (rows.map key).Nodup := by
  apply pairwise_map.mpr
  exact inOrder.imp fun less => less.ne

theorem InOrder.take (limit : Nat) : InOrder key (rows.take limit) :=
  List.Pairwise.sublist (take_sublist limit rows) inOrder

theorem InOrder.le_getLast {last row : Row} (isLast : rows.getLast? = some last)
    (member : row ∈ rows) : key row ≤ key last := by
  obtain ⟨init, rfl⟩ := getLast?_eq_some_iff.mp isLast
  rcases mem_append.mp member with isBefore | isLast
  · exact (pairwise_append.mp inOrder).2.2 row isBefore last (.head _) |>.le
  · rw [mem_singleton.mp isLast]

theorem InOrder.mem_take {limit : Nat} {last row : Row}
    (isLast : (rows.take limit).getLast? = some last) :
    row ∈ rows.take limit ↔ row ∈ rows ∧ key row ≤ key last := by
  constructor
  · intro member
    exact ⟨mem_of_mem_take member, (inOrder.take limit).le_getLast isLast member⟩
  · rintro ⟨member, atMost⟩
    rw [← take_append_drop limit rows, mem_append] at member
    rcases member with inPage | beyond
    · exact inPage
    · have divided : InOrder key (rows.take limit ++ rows.drop limit) := by
        rwa [take_append_drop]
      have greater : key last < key row := (pairwise_append.mp divided).2.2 last
        (mem_of_getLast? isLast) row beyond
      exact absurd atMost greater.not_ge

omit inOrder in
theorem InOrder.filter_beyond {before after : List Row} {last : Row}
    (inOrder : InOrder key (before ++ last :: after)) :
    (before ++ last :: after).filter (fun row => key last < key row) = after := by
  obtain ⟨-, ofLast, crossing⟩ := pairwise_append.mp inOrder
  have noneBefore : ∀ row ∈ before, ¬key last < key row := fun row member =>
    (crossing row member last (.head _)).not_gt
  have allAfter := (pairwise_cons.mp ofLast).1
  rw [filter_append, filter_eq_nil_iff.mpr (by simpa using noneBefore),
    filter_cons_of_neg (by simp), filter_eq_self.mpr (by simpa using allAfter), nil_append]

theorem InOrder.eq_of_perm {other : List Row} (otherInOrder : InOrder key other)
    (same : rows.Perm other) : rows = other :=
  same.eq_of_pairwise (fun _ _ _ _ less greater => absurd less greater.not_gt) inOrder otherInOrder

end

theorem inOrder_insertionSort (rows : List Row) (nodup : (rows.map key).Nodup) :
    InOrder key (rows.insertionSort fun first second => key first ≤ key second) := by
  have distinct : (rows.insertionSort fun first second => key first ≤ key second).Pairwise
      fun first second => key first ≠ key second := by
    apply pairwise_map.mp
    exact ((perm_insertionSort _ rows).map key).nodup_iff.mpr nodup
  have sorted : (rows.insertionSort fun first second => key first ≤ key second).Pairwise
      fun first second => key first ≤ key second :=
    @pairwise_insertionSort _ (fun first second => key first ≤ key second) _
      ⟨fun first second => le_total (key first) (key second)⟩
      ⟨fun _ _ _ => le_trans⟩ rows
  exact (sorted.and distinct).imp fun both => lt_of_le_of_ne both.1 both.2

end DubEcosystem.KeysetPages
