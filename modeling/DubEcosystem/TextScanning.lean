import Mathlib.Data.List.Basic
import Mathlib.Data.List.TakeWhile

/-!
# Scanning a text with a regular expression

A global regular expression is tried at each position from the left; where it matches, the
match is one token and scanning goes on behind it, elsewhere one character is passed over.
-/

namespace DubEcosystem.TextScanning

open List Option

/-- What is matched at the start of a text, with the length of the match. -/
abbrev Matcher (α : Type) : Type := List Char → Option (α × Nat)

namespace Matcher

variable {α β : Type}

/-- `first|second`. -/
def or (first second : Matcher α) : Matcher α :=
  fun text => (first text).or (second text)

def map (matcher : Matcher α) (change : α → β) : Matcher β :=
  fun text => (matcher text).map fun found => (change found.1, found.2)

variable {matcher : Matcher α}

theorem map_eq_some {change : α → β} {text : List Char} {token : β} {length : Nat} :
    matcher.map change text = some (token, length) ↔
      ∃ found, matcher text = some (found, length) ∧ change found = token := by
  unfold map
  rw [map_eq_some_iff]
  constructor
  · rintro ⟨⟨found, _⟩, matched, equal⟩
    cases equal
    exact ⟨found, matched, rfl⟩
  · rintro ⟨found, matched, rfl⟩
    exact ⟨(found, length), matched, rfl⟩

theorem map_eq_none {change : α → β} {text : List Char} :
    matcher.map change text = none ↔ matcher text = none :=
  map_eq_none_iff

end Matcher

/-- `opening`, one or more characters `inside`, `closing`. -/
def delimited (opening : List Char) (inside : Char → Bool) (closing : List Char) :
    Matcher (List Char) :=
  fun text =>
    let rest := text.drop opening.length
    let content := rest.takeWhile inside
    if opening.isPrefixOf text ∧ content ≠ [] ∧ closing.isPrefixOf (rest.drop content.length)
    then some (content, opening.length + content.length + closing.length)
    else none

variable {opening closing content text : List Char} {inside : Char → Bool} {length : Nat}

theorem delimited_sound (found : delimited opening inside closing text = some (content, length)) :
    content ≠ [] ∧ (∀ c ∈ content, inside c) ∧
      length = opening.length + content.length + closing.length ∧
        ∃ after, text = opening ++ content ++ closing ++ after := by
  unfold delimited at found
  simp only [] at found
  split at found
  · rename_i matches'
    obtain ⟨isOpening, notEmpty, isClosing⟩ := matches'
    obtain ⟨rest, rfl⟩ := isPrefixOf_iff_prefix.mp isOpening
    rw [drop_left] at found notEmpty isClosing
    obtain ⟨rfl, rfl⟩ := Prod.mk.inj (some.inj found)
    obtain ⟨after, closes⟩ := isPrefixOf_iff_prefix.mp isClosing
    refine ⟨notEmpty, fun c member => mem_takeWhile_imp member, rfl, after, ?_⟩
    have isRest : rest.takeWhile inside ++ rest.drop (rest.takeWhile inside).length = rest :=
      prefix_iff_eq_append.mp (List.takeWhile_prefix inside)
    rw [append_assoc, append_assoc, closes, isRest]
  · cases found

/-- Where a content is followed by a closing, it is matched. -/
theorem delimited_complete (after : List Char) (notEmpty : content ≠ [])
    (isInside : ∀ c ∈ content, inside c)
    (closes : ∀ c ∈ closing.head?, inside c = false) (isClosed : closing ≠ []) :
    delimited opening inside closing (opening ++ content ++ closing ++ after) =
      some (content, opening.length + content.length + closing.length) := by
  obtain ⟨first, others, rfl⟩ := exists_cons_of_ne_nil isClosed
  have stops : inside first = false := closes first rfl
  have isContent : (content ++ (first :: others ++ after)).takeWhile inside = content := by
    rw [takeWhile_append_of_pos isInside, cons_append, takeWhile_cons, stops]
    simp
  unfold delimited
  simp only [append_assoc, drop_left, isContent]
  rw [if_pos]
  exact ⟨List.isPrefixOf_iff_prefix.mpr (prefix_append _ _), notEmpty,
    isPrefixOf_iff_prefix.mpr (prefix_append _ _)⟩

variable {rest : List Char}

/-- Nothing is matched where the opening does not start. -/
theorem delimited_eq_none {first head : Char} {others : List Char} (differs : head ≠ first) :
    delimited (first :: others) inside closing (head :: rest) = none := by
  unfold delimited
  simp only []
  rw [if_neg]
  rintro ⟨isOpening, -⟩
  rw [isPrefixOf_cons_cons, Bool.and_eq_true, beq_iff_eq] at isOpening
  exact differs isOpening.1.symm

inductive Piece (α : Type) where
  | char (c : Char)
  | token (token : α)

variable {α β : Type}

/-- Scanning behind the next `skip` characters. -/
def scanFrom (matcher : Matcher α) : Nat → List Char → List (Piece α)
  | _, [] => []
  | skip + 1, _ :: rest => scanFrom matcher skip rest
  | 0, c :: rest =>
    match matcher (c :: rest) with
    | some (token, length) => .token token :: scanFrom matcher (length - 1) rest
    | none => .char c :: scanFrom matcher 0 rest

def scan (matcher : Matcher α) (text : List Char) : List (Piece α) :=
  scanFrom matcher 0 text

theorem scanFrom_eq_scan (matcher : Matcher α) (skip : Nat) (text : List Char) :
    scanFrom matcher skip text = scan matcher (text.drop skip) := by
  induction text generalizing skip with
  | nil => cases skip <;> rfl
  | cons c rest ih =>
    cases skip with
    | zero => rfl
    | succ skip => exact ih skip

variable {matcher : Matcher α}

variable {c : Char}

theorem scan_cons_of_none (missing : matcher (c :: rest) = none) :
    scan matcher (c :: rest) = .char c :: scan matcher rest := by
  rw [scan, scanFrom, missing]
  rfl

variable {token : α}

theorem scan_of_match {matched after : List Char}
    (found : matcher (matched ++ after) = some (token, matched.length))
    (notEmpty : matched ≠ []) :
    scan matcher (matched ++ after) = .token token :: scan matcher after := by
  obtain ⟨c, others, rfl⟩ := exists_cons_of_ne_nil notEmpty
  have behind : (others ++ after).drop others.length = after := drop_left
  rw [cons_append] at found
  rw [cons_append, scan, scanFrom, found]
  simp only [length_cons, Nat.add_sub_cancel]
  rw [scanFrom_eq_scan, behind]

def Piece.token? : Piece α → Option α
  | .char _ => none
  | .token found => some found

/-- `text.matchAll(re)`. -/
def matchAll (matcher : Matcher α) (text : List Char) : List α :=
  (scan matcher text).filterMap Piece.token?

/-- `text.replace(re, replacement)` for a global `re`. -/
def replaceAll (matcher : Matcher α) (replacement : List Char) (text : List Char) : List Char :=
  (scan matcher text).flatMap fun
    | .char c => [c]
    | .token _ => replacement

theorem matchAll_cons_of_none (missing : matcher (c :: rest) = none) :
    matchAll matcher (c :: rest) = matchAll matcher rest := by
  unfold matchAll
  rw [scan_cons_of_none missing, filterMap_cons]
  rfl

theorem matchAll_of_match {matched after : List Char}
    (found : matcher (matched ++ after) = some (token, matched.length))
    (notEmpty : matched ≠ []) :
    matchAll matcher (matched ++ after) = token :: matchAll matcher after := by
  unfold matchAll
  rw [scan_of_match found notEmpty, filterMap_cons]
  rfl

/-- Characters that no match starts with are passed over. -/
theorem matchAll_append_of_none {passed : List Char}
    (missing : ∀ c ∈ passed, ∀ others, matcher (c :: others) = none) :
    matchAll matcher (passed ++ rest) = matchAll matcher rest := by
  induction passed with
  | nil => rfl
  | cons c passed ih =>
    rw [cons_append, matchAll_cons_of_none (missing c mem_cons_self _)]
    exact ih fun other member => missing other (mem_cons_of_mem c member)

variable {replacement : List Char}

theorem replaceAll_cons_of_none (missing : matcher (c :: rest) = none) :
    replaceAll matcher replacement (c :: rest) = c :: replaceAll matcher replacement rest := by
  unfold replaceAll
  rw [scan_cons_of_none missing]
  rfl

theorem replaceAll_of_match {matched after : List Char}
    (found : matcher (matched ++ after) = some (token, matched.length))
    (notEmpty : matched ≠ []) :
    replaceAll matcher replacement (matched ++ after) =
      replacement ++ replaceAll matcher replacement after := by
  unfold replaceAll
  rw [scan_of_match found notEmpty]
  rfl

theorem replaceAll_append_of_none {passed : List Char}
    (missing : ∀ c ∈ passed, ∀ others, matcher (c :: others) = none) :
    replaceAll matcher replacement (passed ++ rest) =
      passed ++ replaceAll matcher replacement rest := by
  induction passed with
  | nil => rfl
  | cons c passed ih =>
    rw [cons_append, replaceAll_cons_of_none (missing c mem_cons_self _),
      ih fun other member => missing other (mem_cons_of_mem c member)]
    rfl

end DubEcosystem.TextScanning
