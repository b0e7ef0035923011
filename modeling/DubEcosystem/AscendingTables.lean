import Mathlib.Data.List.Sort

/-!
# Lists kept ascending by a key

A list whose keys ascend strictly is a finite table: its members determine it, and a
binary search finds where a key stands.  Placing, changing and dropping the entry of
one key are computed from the searched position, and act on the members alone.
-/

namespace DubEcosystem.AscendingTables

open List

/-- The loop `while (low < high)` of a binary search for the first index that is not below. -/
def bisect (below : Nat → Bool) : (fuel low high : Nat) → Nat
  | 0, low, _ => low
  | fuel + 1, low, high =>
    if low < high then
      if below ((low + high) / 2) then bisect below fuel ((low + high) / 2 + 1) high
      else bisect below fuel low ((low + high) / 2)
    else low

/-- A binary search with enough fuel finds the cut of its predicate. -/
theorem bisect_eq {below : Nat → Bool} {cut : Nat}
    (belowIff : ∀ index, below index = true ↔ index < cut) {fuel low high : Nat}
    (enough : high - low ≤ fuel) (lowLe : low ≤ cut) (leHigh : cut ≤ high) :
    bisect below fuel low high = cut := by
  induction fuel generalizing low high with
  | zero =>
    rw [bisect]
    omega
  | succ fuel ih =>
    rw [bisect]
    by_cases more : low < high
    · rw [if_pos more]
      by_cases isBelow : (low + high) / 2 < cut
      · rw [if_pos ((belowIff _).mpr isBelow)]
        exact ih (by omega) (by omega) leHigh
      · rw [if_neg (mt (belowIff _).mp isBelow)]
        exact ih (by omega) lowLe (by omega)
    · rw [if_neg more]
      omega

variable {Key Entry : Type} [LinearOrder Key] (key : Entry → Key)

variable (entries : List Entry)

def Ascending : Prop :=
  entries.Pairwise fun first second => key first < key second

/-- Where the entry of `sought` stands, or would stand. -/
def position (sought : Key) : Nat :=
  bisect (fun index => entries[index]?.any fun entry => decide (key entry < sought))
    entries.length 0 entries.length

def place (entry : Entry) : List Entry :=
  let index := position key entries (key entry)
  match entries[index]? with
  | some existing =>
    if key existing = key entry then entries.set index entry
    else entries.insertIdx index entry
  | none => entries.insertIdx index entry

def change (sought : Key) (revise : Entry → Entry) : List Entry :=
  let index := position key entries sought
  match entries[index]? with
  | some existing =>
    if key existing = sought then entries.set index (revise existing) else entries
  | none => entries

def drop (entries : List Entry) (sought : Key) : List Entry :=
  let index := position key entries sought
  match entries[index]? with
  | some existing => if key existing = sought then entries.eraseIdx index else entries
  | none => entries

section Cut

variable {key}

theorem Ascending.exists_cut {entries : List Entry} (ascending : Ascending key entries)
    (sought : Key) :
    ∃ before after, entries = before ++ after ∧ (∀ entry ∈ before, key entry < sought) ∧
      ∀ entry ∈ after, sought ≤ key entry := by
  induction entries with
  | nil => exact ⟨[], [], by simp⟩
  | cons head tail ih =>
    have headLt : ∀ entry ∈ tail, key head < key entry := (pairwise_cons.mp ascending).1
    by_cases isBefore : key head < sought
    · obtain ⟨before, after, rfl, beforeLt, afterGe⟩ := ih (pairwise_cons.mp ascending).2
      exact ⟨head :: before, after, rfl, by simpa [isBefore] using beforeLt, afterGe⟩
    · refine ⟨[], head :: tail, rfl, by simp, ?_⟩
      exact forall_mem_cons.mpr ⟨le_of_not_gt isBefore,
          fun entry inTail => (le_of_not_gt isBefore).trans (headLt entry inTail).le⟩

theorem position_append {before after : List Entry} {sought : Key}
    (beforeLt : ∀ entry ∈ before, key entry < sought)
    (afterGe : ∀ entry ∈ after, sought ≤ key entry) :
    position key (before ++ after) sought = before.length := by
  apply bisect_eq
  · intro index
    by_cases isBefore : index < before.length
    · simp [isBefore, getElem?_append_left isBefore, beforeLt]
    · rw [getElem?_append_right (by omega)]
      have notBelow : ∀ entry, after[index - before.length]? = some entry → ¬ key entry < sought :=
        fun entry found => not_lt.mpr (afterGe entry (mem_of_getElem? found))
      cases found : after[index - before.length]? with
      | none => simp [isBefore]
      | some entry => simp [isBefore, notBelow entry found]
  · simp
  · simp
  · simp

end Cut

section Operations

variable {key}

theorem insertIdx_length (before after : List Entry) (entry : Entry) :
    (before ++ after).insertIdx before.length entry = before ++ entry :: after := by
  induction before with
  | nil => simp
  | cons head tail ih => simp [ih]

variable {entries : List Entry}

theorem map_eq_self {revise : Entry → Entry} (unchanged : ∀ entry ∈ entries, revise entry = entry) :
    entries.map revise = entries := by
  rw [map_congr_left unchanged, map_id']

section

variable (ascending : Ascending key entries)
include ascending

theorem place_eq (placed : Entry) : place key entries placed =
      entries.filter (fun entry => key entry < key placed) ++
        placed :: entries.filter fun entry => key placed < key entry := by
  obtain ⟨before, after, rfl, beforeLt, afterGe⟩ := ascending.exists_cut (key placed)
  have keepsBefore : before.filter (fun entry => key entry < key placed) = before :=
    filter_eq_self.mpr (by simpa using beforeLt)
  have dropsBefore : before.filter (fun entry => key placed < key entry) = [] :=
    filter_eq_nil_iff.mpr (by simpa using fun entry inBefore => (beforeLt entry inBefore).le)
  have dropsAfter : after.filter (fun entry => key entry < key placed) = [] :=
    filter_eq_nil_iff.mpr (by simpa using afterGe)
  rw [place, position_append beforeLt afterGe, filter_append, filter_append,
    keepsBefore, dropsBefore, dropsAfter]
  cases after with
  | nil => simp
  | cons head tail =>
    have headLt : ∀ entry ∈ tail, key head < key entry :=
      (pairwise_cons.mp (pairwise_append.mp ascending).2.1).1
    have tailGt : ∀ entry ∈ tail, key placed < key entry :=
      fun entry inTail => (afterGe head (by simp)).trans_lt (headLt entry inTail)
    have keepsTail : tail.filter (fun entry => key placed < key entry) = tail :=
      filter_eq_self.mpr (by simpa using tailGt)
    simp only [getElem?_append_right le_rfl, Nat.sub_self, getElem?_cons_zero]
    by_cases present : key head = key placed
    · simp [present, keepsTail, set_append_right]
    · have headGt : key placed < key head :=
        lt_of_le_of_ne (afterGe head (by simp)) (Ne.symm present)
      simp [present, keepsTail, headGt, insertIdx_length]

theorem change_eq (sought : Key) (revise : Entry → Entry) : change key entries sought revise =
      entries.map fun entry => if key entry = sought then revise entry else entry := by
  obtain ⟨before, after, rfl, beforeLt, afterGe⟩ := ascending.exists_cut sought
  have keepsBefore :
      before.map (fun entry => if key entry = sought then revise entry else entry) = before :=
    map_eq_self fun entry inBefore => if_neg (beforeLt entry inBefore).ne
  rw [change, position_append beforeLt afterGe, map_append, keepsBefore]
  cases after with
  | nil => simp
  | cons head tail =>
    have headLt : ∀ entry ∈ tail, key head < key entry :=
      (pairwise_cons.mp (pairwise_append.mp ascending).2.1).1
    have keepsTail :
        tail.map (fun entry => if key entry = sought then revise entry else entry) = tail :=
      map_eq_self fun entry inTail =>
        if_neg ((afterGe head (by simp)).trans_lt (headLt entry inTail)).ne'
    by_cases present : key head = sought <;> simp [present, keepsTail, set_append_right]

theorem drop_eq (sought : Key) :
    drop key entries sought = entries.filter fun entry => key entry ≠ sought := by
  obtain ⟨before, after, rfl, beforeLt, afterGe⟩ := ascending.exists_cut sought
  have keepsBefore : before.filter (fun entry => key entry ≠ sought) = before :=
    filter_eq_self.mpr (by simpa using fun entry inBefore => (beforeLt entry inBefore).ne)
  rw [drop, position_append beforeLt afterGe, filter_append, keepsBefore]
  cases after with
  | nil => simp
  | cons head tail =>
    have headLt : ∀ entry ∈ tail, key head < key entry :=
      (pairwise_cons.mp (pairwise_append.mp ascending).2.1).1
    have keepsTail : tail.filter (fun entry => !decide (key entry = sought)) = tail :=
      filter_eq_self.mpr (by
        simpa using fun entry inTail =>
          ((afterGe head (by simp)).trans_lt (headLt entry inTail)).ne')
    by_cases present : key head = sought <;>
      simp [present, keepsTail, eraseIdx_append_of_length_le]

theorem mem_place (placed entry : Entry) : entry ∈ place key entries placed ↔
      entry = placed ∨ entry ∈ entries ∧ key entry ≠ key placed := by
  rw [place_eq ascending]
  simp only [mem_append, mem_cons, mem_filter, decide_eq_true_eq]
  constructor
  · rintro (⟨entryMem, keyLt⟩ | rfl | ⟨entryMem, keyGt⟩)
    · exact .inr ⟨entryMem, keyLt.ne⟩
    · exact .inl rfl
    · exact .inr ⟨entryMem, keyGt.ne'⟩
  · rintro (rfl | ⟨entryMem, keyNe⟩)
    · exact .inr (.inl rfl)
    · rcases lt_or_gt_of_ne keyNe with keyLt | keyGt
      · exact .inl ⟨entryMem, keyLt⟩
      · exact .inr (.inr ⟨entryMem, keyGt⟩)

theorem Ascending.place (placed : Entry) : Ascending key (place key entries placed) := by
  rw [place_eq ascending]
  apply pairwise_append.mpr
  refine ⟨ascending.filter _, pairwise_cons.mpr ⟨?_, ascending.filter _⟩, ?_⟩
  · intro entry entryMem
    simpa using (mem_filter.mp entryMem).2
  · intro first firstMem second secondMem
    have firstLt : key first < key placed := by simpa using (mem_filter.mp firstMem).2
    rcases mem_cons.mp secondMem with rfl | secondMem
    · exact firstLt
    · exact firstLt.trans (by simpa using (mem_filter.mp secondMem).2)

theorem Ascending.change (sought : Key) {revise : Entry → Entry}
    (keepsKey : ∀ entry, key (revise entry) = key entry) :
    Ascending key (change key entries sought revise) := by
  have sameKey : ∀ entry, key (if key entry = sought then revise entry else entry) = key entry := by
    intro entry
    split
    · exact keepsKey entry
    · rfl
  rw [change_eq ascending]
  apply pairwise_map.mpr
  exact ascending.imp fun keyLt => by simpa only [sameKey] using keyLt

theorem Ascending.drop (sought : Key) : Ascending key (drop key entries sought) := by
  rw [drop_eq ascending]
  exact ascending.filter _

end

end Operations

variable {key}

theorem Ascending.ext {first second : List Entry} (firstAscending : Ascending key first)
    (secondAscending : Ascending key second)
    (sameMembers : ∀ entry, entry ∈ first ↔ entry ∈ second) : first = second := by
  have nodup : ∀ {entries : List Entry}, Ascending key entries → entries.Nodup :=
    fun ascending => ascending.imp fun keyLt same => (same ▸ keyLt).false
  have perm : first.Perm second :=
    (perm_ext_iff_of_nodup (nodup firstAscending) (nodup secondAscending)).mpr sameMembers
  exact perm.eq_of_pairwise (fun _ _ _ _ keyLt keyGt => ((keyLt.trans keyGt).false).elim)
    firstAscending secondAscending

section

variable {entries : List Entry} (ascending : Ascending key entries)
include ascending

theorem Ascending.eq_of_key_eq {first second : Entry} (firstMem : first ∈ entries)
    (secondMem : second ∈ entries) (sameKey : key first = key second) : first = second := by
  induction entries with
  | nil => cases firstMem
  | cons head tail ih =>
    have headLt : ∀ entry ∈ tail, key head < key entry := (pairwise_cons.mp ascending).1
    rcases mem_cons.mp firstMem with rfl | firstInTail <;>
      rcases mem_cons.mp secondMem with rfl | secondInTail
    · rfl
    · exact absurd sameKey (headLt second secondInTail).ne
    · exact absurd sameKey (headLt first firstInTail).ne'
    · exact ih (pairwise_cons.mp ascending).2 firstInTail secondInTail

theorem place_place {first second : Entry} (sameKey : key first = key second) :
    place key (place key entries first) second = place key entries second := by
  apply ((ascending.place first).place second).ext (ascending.place second)
  intro entry
  rw [mem_place (ascending.place first), mem_place ascending, mem_place ascending, sameKey]
  constructor
  · rintro (rfl | ⟨rfl | inEntries, keyNe⟩)
    · exact .inl rfl
    · exact absurd sameKey keyNe
    · exact .inr inEntries
  · rintro (rfl | inEntries)
    · exact .inl rfl
    · exact .inr ⟨.inr inEntries, inEntries.2⟩

theorem change_place_of_ne {placed : Entry} {sought : Key} (keyNe : key placed ≠ sought)
    {revise : Entry → Entry} (keepsKey : ∀ entry, key (revise entry) = key entry) :
    change key (place key entries placed) sought revise =
      place key (change key entries sought revise) placed := by
  have sameKey : ∀ entry, key (if key entry = sought then revise entry else entry) = key entry := by
    intro entry
    split
    · exact keepsKey entry
    · rfl
  apply ((ascending.place placed).change sought keepsKey).ext
    ((ascending.change sought keepsKey).place placed)
  intro entry
  rw [change_eq (ascending.place placed), mem_place (ascending.change sought keepsKey),
    change_eq ascending, List.mem_map, List.mem_map]
  constructor
  · rintro ⟨old, oldMem, rfl⟩
    rcases (mem_place ascending placed old).mp oldMem with rfl | ⟨inEntries, oldNe⟩
    · exact .inl (if_neg keyNe)
    · exact .inr ⟨⟨old, inEntries, rfl⟩, by rwa [sameKey]⟩
  · rintro (rfl | ⟨⟨old, inEntries, rfl⟩, oldNe⟩)
    · exact ⟨entry, (mem_place ascending entry entry).mpr (.inl rfl), if_neg keyNe⟩
    · exact ⟨old, (mem_place ascending placed old).mpr (.inr ⟨inEntries, by rwa [sameKey] at oldNe⟩),
        rfl⟩

end

end DubEcosystem.AscendingTables
