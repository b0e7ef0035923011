import Mathlib.Data.List.AList

/-!
# Caches ordered by recency

A cache keeps one entry per key, the most recently used first.  Taking entries out,
moving one to the front and making room by dropping the oldest never brings an entry
into being, so that a property of each entry has to be shown of what is put in only.
-/

namespace DubEcosystem.RecencyCache

variable {κ ν : Type} [DecidableEq κ]

/-- One entry per key, the most recently used first. -/
abbrev Recency (κ ν : Type) :=
  AList fun _ : κ => ν

def size (entries : Recency κ ν) : Nat :=
  entries.keys.length

/-- Drop the keys in this order while the cache is full. -/
def evictWhile (full : Nat → Bool) : List κ → Recency κ ν → Recency κ ν
  | [], entries => entries
  | oldest :: newer, entries =>
    if full (size entries) then evictWhile full newer (entries.erase oldest)
    else entries

/-- Drop the least recently used entries while the cache is full. -/
def evict (full : Nat → Bool) (entries : Recency κ ν) : Recency κ ν :=
  evictWhile full entries.keys.reverse entries

def EachEntry (property : κ → ν → Prop) (entries : Recency κ ν) : Prop :=
  ∀ key value, entries.lookup key = some value → property key value

variable {property : κ → ν → Prop} {entries : Recency κ ν}

theorem eachEntry_empty : EachEntry property (∅ : Recency κ ν) := by
  intro key value found
  simp at found

theorem EachEntry.erase (each : EachEntry property entries) (removed : κ) :
    EachEntry property (entries.erase removed) := by
  intro key value found
  by_cases same : key = removed
  · subst same
    simp at found
  · rw [AList.lookup_erase_ne same] at found
    exact each key value found

theorem EachEntry.insert (each : EachEntry property entries) {added : κ} {put : ν}
    (holds : property added put) : EachEntry property (entries.insert added put) := by
  intro key value found
  by_cases same : key = added
  · subst same
    rw [AList.lookup_insert] at found
    cases found
    exact holds
  · rw [AList.lookup_insert_ne same] at found
    exact each key value found

theorem EachEntry.evict (each : EachEntry property entries) (full : Nat → Bool) :
    EachEntry property (evict full entries) := by
  suffices loop : ∀ (order : List κ) (entries : Recency κ ν),
      EachEntry property entries → EachEntry property (evictWhile full order entries) from
    loop entries.keys.reverse entries each
  intro order
  induction order with
  | nil =>
    intro entries each
    exact each
  | cons oldest newer ih =>
    intro entries each
    unfold evictWhile
    split
    · exact ih _ (each.erase oldest)
    · exact each

end DubEcosystem.RecencyCache
