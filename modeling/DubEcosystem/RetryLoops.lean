import Mathlib.Data.List.Basic

/-!
# Retry loops

A retry loop makes attempts until an outcome settles the matter or none is left.  It keeps
the outcomes it has seen, each but the last of which asked for another attempt.
-/

namespace DubEcosystem.RetryLoops

variable {Outcome Result : Type}

/-- The outcomes that were seen, and what the last one settled, if it did. -/
structure History (Outcome Result : Type) where
  seen : List Outcome
  settled : Option Result

/-- Make at most `fuel` attempts after `attempt` of them; `settle` numbers them from one, and
gives `none` for another attempt. -/
def run (settle : Nat → Outcome → Option Result) (outcomes : Nat → Outcome) :
    (fuel attempt : Nat) → History Outcome Result
  | 0, _ => ⟨[], none⟩
  | fuel + 1, attempt =>
    match settle (attempt + 1) (outcomes attempt) with
    | some result => ⟨[outcomes attempt], some result⟩
    | none =>
      let rest := run settle outcomes fuel (attempt + 1)
      ⟨outcomes attempt :: rest.seen, rest.settled⟩

variable {settle : Nat → Outcome → Option Result} {outcomes : Nat → Outcome}

variable {attempt : Nat}

variable {fuel : Nat}

theorem run_of_settle {result : Result}
    (settles : settle (attempt + 1) (outcomes attempt) = some result) :
    run settle outcomes (fuel + 1) attempt = ⟨[outcomes attempt], some result⟩ := by
  rw [run, settles]

theorem run_of_again (again : settle (attempt + 1) (outcomes attempt) = none) :
    run settle outcomes (fuel + 1) attempt =
      ⟨outcomes attempt :: (run settle outcomes fuel (attempt + 1)).seen,
        (run settle outcomes fuel (attempt + 1)).settled⟩ := by
  rw [run, again]

theorem length_run_le (fuel attempt : Nat) :
    (run settle outcomes fuel attempt).seen.length ≤ fuel := by
  induction fuel generalizing attempt with
  | zero => exact Nat.le_refl 0
  | succ fuel ih =>
    cases settles : settle (attempt + 1) (outcomes attempt) with
    | some result => simp [run_of_settle settles]
    | none => simpa [run_of_again settles] using ih (attempt + 1)

variable {index : Nat}

theorem getElem?_run {outcome : Outcome}
    (seen : (run settle outcomes fuel attempt).seen[index]? = some outcome) :
    outcome = outcomes (attempt + index) := by
  induction fuel generalizing attempt index with
  | zero => cases seen
  | succ fuel ih =>
    cases settles : settle (attempt + 1) (outcomes attempt) with
    | some result =>
      rw [run_of_settle settles] at seen
      cases index with
      | zero => exact (Option.some.inj seen).symm
      | succ index => cases seen
    | none =>
      rw [run_of_again settles] at seen
      cases index with
      | zero => exact (Option.some.inj seen).symm
      | succ index =>
        rw [ih seen, Nat.add_right_comm, Nat.add_assoc]

/-- Every outcome but the last asked for another attempt. -/
theorem again_of_lt (notLast : index + 1 < (run settle outcomes fuel attempt).seen.length) :
    settle (attempt + index + 1) (outcomes (attempt + index)) = none := by
  induction fuel generalizing attempt index with
  | zero => simp [run] at notLast
  | succ fuel ih =>
    cases settles : settle (attempt + 1) (outcomes attempt) with
    | some result => simp [run_of_settle settles] at notLast
    | none =>
      cases index with
      | zero => exact settles
      | succ index =>
        rw [run_of_again settles] at notLast
        have later := @ih (attempt + 1) index (by simpa using notLast)
        rwa [Nat.add_right_comm attempt 1 index, Nat.add_assoc attempt index 1] at later

/-- Outcomes that all ask for another attempt are followed by one. -/
theorem lt_of_again (enough : index + 1 < fuel) (again : ∀ earlier ≤ index,
      settle (attempt + earlier + 1) (outcomes (attempt + earlier)) = none) :
    index + 1 < (run settle outcomes fuel attempt).seen.length := by
  induction fuel generalizing attempt index with
  | zero => omega
  | succ fuel ih =>
    have first : settle (attempt + 1) (outcomes attempt) = none := again 0 (Nat.zero_le _)
    rw [run_of_again first, List.length_cons]
    cases index with
    | zero =>
      cases fuel with
      | zero => omega
      | succ fuel =>
        cases settles : settle (attempt + 1 + 1) (outcomes (attempt + 1)) with
        | some result => simp [run_of_settle settles]
        | none => simp [run_of_again settles]
    | succ index =>
      have later := @ih (attempt + 1) index (by omega) (by
        intro earlier earlierLe
        have next := again (earlier + 1) (by omega)
        rwa [← Nat.add_assoc, Nat.add_right_comm attempt earlier 1] at next)
      omega

/-- The last outcome settles the matter if there is one more attempt than are made. -/
theorem settled_of_last (isLast : index + 1 = (run settle outcomes fuel attempt).seen.length)
    {result : Result}
    (settles : settle (attempt + index + 1) (outcomes (attempt + index)) = some result) :
    (run settle outcomes fuel attempt).settled = some result := by
  induction fuel generalizing attempt index with
  | zero => simp [run] at isLast
  | succ fuel ih =>
    cases first : settle (attempt + 1) (outcomes attempt) with
    | some early =>
      rw [run_of_settle first] at isLast ⊢
      obtain rfl : index = 0 := by simpa using isLast
      rw [← settles, ← first]
      rfl
    | none =>
      rw [run_of_again first] at isLast ⊢
      cases index with
      | zero => exact absurd settles (by simp [first])
      | succ index =>
        apply @ih (attempt + 1) index (by simpa using isLast)
        rwa [Nat.add_right_comm attempt 1 index, Nat.add_assoc attempt index 1]

end DubEcosystem.RetryLoops
