import Mathlib.Data.List.Infix
import Mathlib.Data.String.Basic

/-!
# LIKE patterns and text behind a mark

The `LIKE` of SQLite, which ignores the case of ASCII letters, on patterns that ask for a
suffix; and suffixes of a text that a mark divides.
-/

namespace DubEcosystem.LikePatterns

open List

theorem toLower_toLower (c : Char) : c.toLower.toLower = c.toLower := by
  unfold Char.toLower
  grind

def like : (pattern text : List Char) → Bool
  | [], text => text.isEmpty
  | c :: pattern, text =>
    if c = '%' then text.tails.any (like pattern)
    else match text with
      | [] => false
      | first :: rest => (c = '_' || c.toLower = first.toLower) && like pattern rest

variable {pattern text : List Char}

/-- A text without wildcards that the casing leaves as it is. -/
def Plain (pattern : List Char) : Prop :=
  ∀ c ∈ pattern, c ≠ '%' ∧ c ≠ '_' ∧ c.toLower = c

theorem like_of_plain (plain : Plain pattern) :
    like pattern text = true ↔ text.map Char.toLower = pattern := by
  induction pattern generalizing text with
  | nil => simp [like]
  | cons c pattern ih =>
    obtain ⟨notMany, notOne, isLower⟩ := plain c (.head _)
    have further : Plain pattern := fun d member => plain d (mem_cons_of_mem c member)
    cases text with
    | nil => simp [like, notMany]
    | cons first rest =>
      rw [like, if_neg notMany, map_cons, List.cons.injEq, Bool.and_eq_true, ih further]
      simp [notOne, isLower, eq_comm]

theorem like_suffix (plain : Plain pattern) :
    like ('%' :: pattern) (text.map Char.toLower) = true ↔ pattern <:+ text.map Char.toLower := by
  have lowered : ∀ tail, tail <:+ text.map Char.toLower → tail.map Char.toLower = tail := by
    intro tail isTail
    refine (map_congr_left ?_).trans (map_id tail)
    intro c member
    obtain ⟨d, -, rfl⟩ := List.mem_map.mp (isTail.subset member)
    exact toLower_toLower d
  simp only [like, if_true, any_eq_true, mem_tails]
  constructor
  · rintro ⟨tail, isTail, isLike⟩
    rwa [← (like_of_plain plain).mp isLike, lowered tail isTail]
  · intro isTail
    exact ⟨pattern, isTail, (like_of_plain plain).mpr (lowered pattern isTail)⟩

section Marks

variable {α : Type*} {mark : α} {text before after : List α}

theorem suffix_behind (free : mark ∉ text) : text <:+ before ++ mark :: after ↔ text <:+ after := by
  constructor
  · intro isSuffix
    rcases suffix_or_suffix_of_suffix isSuffix (suffix_append before _) with short | long
    · rcases suffix_cons_iff.mp short with rfl | further
      · exact absurd (.head _) free
      · exact further
    · exact absurd (long.subset (.head _)) free
  · exact fun isSuffix => isSuffix.trans ((suffix_cons mark after).trans (suffix_append before _))

theorem cons_suffix_last (free : mark ∉ text) (last : mark ∉ after) :
    mark :: text <:+ before ++ mark :: after ↔ text = after := by
  constructor
  · intro isSuffix
    rcases suffix_or_suffix_of_suffix isSuffix (suffix_append before _) with short | long
    · rcases suffix_cons_iff.mp short with same | further
      · exact (List.cons.inj same).2
      · exact absurd (further.subset (.head _)) last
    · rcases suffix_cons_iff.mp long with same | further
      · exact (List.cons.inj same).2.symm
      · exact absurd (further.subset (.head _)) free
  · rintro rfl
    exact suffix_append before _

theorem cons_suffix_first (free : mark ∉ before) :
    mark :: text <:+ before ++ mark :: after ↔ text = after ∨ mark :: text <:+ after := by
  constructor
  · intro isSuffix
    induction before with
    | nil => simpa [suffix_cons_iff] using isSuffix
    | cons first before ih =>
      rcases suffix_cons_iff.mp isSuffix with same | further
      · exact absurd (List.cons.inj same).1 fun isFirst => free (isFirst ▸ (.head _))
      · exact ih (fun member => free (mem_cons_of_mem first member)) further
  · rintro (rfl | further)
    · exact suffix_append before _
    · exact further.trans ((suffix_cons mark after).trans (suffix_append before _))

variable [DecidableEq α]

/-- `text.slice(text.lastIndexOf(mark) + 1)`, for a text with the mark. -/
def afterLast (mark : α) : List α → Option (List α)
  | [] => none
  | first :: rest => (afterLast mark rest).or (if first = mark then some rest else none)

theorem afterLast_eq_none : afterLast mark text = none ↔ mark ∉ text := by
  induction text with
  | nil => simp [afterLast]
  | cons first rest ih =>
    simp [afterLast, Option.or_eq_none_iff, ih, and_comm, @eq_comm _ first]

theorem exists_of_afterLast (found : afterLast mark text = some after) :
    mark ∉ after ∧ ∃ before, text = before ++ mark :: after := by
  induction text with
  | nil => cases found
  | cons first rest ih =>
    cases isLast : afterLast mark rest with
    | some host =>
      rw [afterLast, isLast] at found
      obtain ⟨last, before, same⟩ := ih (isLast.trans found)
      exact ⟨last, first :: before, congrArg (first :: ·) same⟩
    | none =>
      rw [afterLast, isLast, Option.none_or, Option.ite_none_right_eq_some] at found
      obtain ⟨rfl, isRest⟩ := found
      cases isRest
      exact ⟨afterLast_eq_none.mp isLast, [], rfl⟩

end Marks

end DubEcosystem.LikePatterns
