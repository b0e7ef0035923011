import Std.Data.String.ToNat
import Mathlib.Data.List.Basic

/-!
# Derived ids

An id made of a base, a separator and a rest without the separator determines both.
-/

namespace DubEcosystem.DerivedIds

open List

/-- The last separator splits a list in one way. -/
theorem append_separator_inj {α : Type} {separator : α} {first second rest other : List α}
    (notInRest : separator ∉ rest) (notInOther : separator ∉ other)
    (same : first ++ separator :: rest = second ++ separator :: other) :
    first = second ∧ rest = other := by
  induction first generalizing second with
  | nil =>
    cases second with
    | nil => simpa using same
    | cons head tail =>
      cases same
      exact (notInRest (by simp)).elim
  | cons head tail ih =>
    cases second with
    | nil =>
      cases same
      exact (notInOther (by simp)).elim
    | cons otherHead otherTail =>
      obtain ⟨rfl, sameTail⟩ := List.cons.inj same
      obtain ⟨rfl, rfl⟩ := ih sameTail
      exact ⟨rfl, rfl⟩

theorem separated_inj {separator : Char} {first second rest other : String}
    (notInRest : separator ∉ rest.toList) (notInOther : separator ∉ other.toList)
    (same : first ++ String.singleton separator ++ rest =
      second ++ String.singleton separator ++ other) :
    first = second ∧ rest = other := by
  have lists := congrArg String.toList same
  simp only [String.toList_append, String.toList_singleton, append_assoc, singleton_append] at lists
  obtain ⟨sameBase, sameRest⟩ := append_separator_inj notInRest notInOther lists
  exact ⟨String.toList_inj.mp sameBase, String.toList_inj.mp sameRest⟩

theorem separator_append_inj {separator : Char} {first second rest other : String}
    (notInFirst : separator ∉ first.toList) (notInSecond : separator ∉ second.toList)
    (same : first ++ String.singleton separator ++ rest =
      second ++ String.singleton separator ++ other) :
    first = second ∧ rest = other := by
  have lists := congrArg (fun text => text.toList.reverse) same
  simp only [String.toList_append, String.toList_singleton, reverse_append,
    reverse_singleton, singleton_append] at lists
  obtain ⟨sameRest, sameFirst⟩ := append_separator_inj (by simpa using notInFirst)
    (by simpa using notInSecond) lists
  exact ⟨String.toList_inj.mp (reverse_inj.mp sameFirst),
    String.toList_inj.mp (reverse_inj.mp sameRest)⟩

theorem dash_notMem_toString (n : Nat) : '-' ∉ (toString n).toList := by
  intro member
  have digits : (toString n).toList = Nat.toDigits 10 n := by
    simp [toString, Nat.repr]
  rw [digits] at member
  exact absurd (Nat.isDigit_of_mem_toDigits (by decide) (by decide) member) (by decide)

theorem numbered_inj {first second : String} {m n : Nat}
    (same : first ++ "-" ++ toString m = second ++ "-" ++ toString n) :
    first = second ∧ m = n := by
  obtain ⟨sameBase, sameNumber⟩ := separated_inj (dash_notMem_toString m)
    (dash_notMem_toString n) same
  exact ⟨sameBase, Nat.repr_injective sameNumber⟩

end DubEcosystem.DerivedIds
