import Mathlib.Data.Set.Finite.List

/-!
# Acyclic relations and topological orders

A relation is acyclic when no walk along it returns to its start.  A list is
topological when every vertex comes after all its sources.  A duplicate-free
topological list proves its relation acyclic, and an acyclic relation has a
source in every nonempty list, which is what lets a topological list grow.
-/

namespace DubEcosystem.AcyclicOrders

open Relation List

variable {V : Type*} {edge weak strong : V → V → Prop}

/-- No walk along `edge` returns to its start. -/
def Acyclic (edge : V → V → Prop) : Prop :=
  ∀ v, ¬ TransGen edge v v

theorem Acyclic.mono (acyclic : Acyclic strong)
    (weaken : ∀ u v, weak u v → strong u v) : Acyclic weak :=
  fun v walk => acyclic v (TransGen.mono weaken v v walk)

theorem Acyclic.swap (acyclic : Acyclic edge) : Acyclic fun u v => edge v u := by
  intro v walk
  exact acyclic v (transGen_swap.mp walk)

/-- An edge closes no walk where none leads from its end to its start. -/
theorem Acyclic.insert (acyclic : Acyclic weak) {start finish : V}
    (apart : ¬ ReflTransGen weak finish start)
    (edges : ∀ u v, strong u v → weak u v ∨ u = start ∧ v = finish) : Acyclic strong := by
  have split : ∀ {u v}, TransGen strong u v →
      TransGen weak u v ∨ ReflTransGen weak u start ∧ ReflTransGen weak finish v := by
    intro u v walk
    induction walk with
    | single uv =>
      rcases edges _ _ uv with old | ⟨rfl, rfl⟩
      · exact .inl (.single old)
      · exact .inr ⟨.refl, .refl⟩
    | tail _ vw ih =>
      rcases edges _ _ vw with old | ⟨rfl, rfl⟩
      · rcases ih with before | ⟨toStart, fromFinish⟩
        · exact .inl (before.tail old)
        · exact .inr ⟨toStart, fromFinish.tail old⟩
      · rcases ih with before | ⟨toStart, fromFinish⟩
        · exact .inr ⟨before.to_reflTransGen, .refl⟩
        · exact (apart fromFinish).elim
  intro v walk
  rcases split walk with old | ⟨toStart, fromFinish⟩
  · exact acyclic v old
  · exact apart (fromFinish.trans toStart)

theorem acyclic_of_lt [Preorder V] (climbs : ∀ u v, edge u v → u < v) :
    Acyclic edge := by
  intro v walk
  have above : v < v := by
    simpa [transGen_eq_self] using TransGen.mono climbs v v walk
  exact lt_irrefl v above

/-- Every vertex of the list comes after all its sources. -/
def Topological (edge : V → V → Prop) (order : List V) : Prop :=
  ∀ before v after, order = before ++ v :: after → ∀ u, edge u v → u ∈ before

theorem topological_nil : Topological edge [] := by
  intro before v after cut
  simp at cut

theorem Topological.mono {order : List V} (topological : Topological strong order)
    (weaken : ∀ u v, weak u v → strong u v) : Topological weak order :=
  fun before v after cut u uv => topological before v after cut u (weaken u v uv)

section

variable {order : List V} (topological : Topological edge order)
include topological

/-- A vertex whose sources are all there can be put at the end. -/
theorem Topological.concat {v : V} (sources : ∀ u, edge u v → u ∈ order) :
    Topological edge (order ++ [v]) := by
  intro before w after cut u uw
  rcases eq_nil_or_concat after with rfl | ⟨rest, last, rfl⟩
  · obtain ⟨rfl, same⟩ := append_inj' cut rfl
    obtain rfl : v = w := by simpa using same
    exact sources u uw
  · have longer : order ++ [v] = (before ++ w :: rest) ++ [last] := by
      simpa using cut
    obtain ⟨shorter, -⟩ := append_inj' longer rfl
    exact topological before w rest shorter u uw

omit topological in
theorem Topological.walk_mem {before after : List V} {u v : V}
    (topological : Topological edge (before ++ v :: after))
    (walk : TransGen edge u v) : u ∈ before := by
  induction walk using TransGen.head_induction_on with
  | single uv => exact topological before v after rfl _ uv
  | head uw _ ih =>
    obtain ⟨first, second, rfl⟩ := append_of_mem ih
    have earlier := topological first _ (second ++ v :: after) (by simp) _ uw
    simp [earlier]

/-- In a topological list without repetitions no walk leads back. -/
theorem Topological.pairwise (nodup : order.Nodup) :
    order.Pairwise fun u v => ¬ TransGen edge v u := by
  suffices suffixes : ∀ before after, order = before ++ after →
      after.Pairwise fun u v => ¬ TransGen edge v u from suffixes [] order rfl
  intro before after
  induction after generalizing before with
  | nil => exact fun _ => .nil
  | cons u after ih =>
    intro cut
    refine .cons (fun v isLater walk => ?_) (ih (before ++ [u]) (by simp [cut]))
    rw [cut] at topological nodup
    have isEarlier := topological.walk_mem walk
    rw [nodup_append] at nodup
    exact nodup.2.2 v isEarlier v (mem_cons_of_mem u isLater) rfl

/-- A duplicate-free topological list that holds every target proves the
relation acyclic. -/
theorem Topological.acyclic (nodup : order.Nodup) (covers : ∀ u v, edge u v → v ∈ order) :
    Acyclic edge := by
  intro v walk
  obtain ⟨w, wv, -⟩ := TransGen.head'_iff.mp walk
  have member : v ∈ order := by
    obtain ⟨u, -, uv⟩ := TransGen.tail'_iff.mp walk
    exact covers u v uv
  obtain ⟨before, after, rfl⟩ := append_of_mem member
  have earlier := topological.walk_mem walk
  rw [nodup_append] at nodup
  exact nodup.2.2 v earlier v (by simp) rfl

/-- Read backwards, a topological list is topological for the reversed
relation. -/
theorem Topological.reverse (nodup : order.Nodup) (covers : ∀ u v, edge u v → v ∈ order) :
    Topological (fun u v => edge v u) order.reverse := by
  intro before v after cut u vu
  have forward : order = after.reverse ++ v :: before.reverse := by
    rw [← reverse_inj, cut]
    simp
  subst forward
  rcases mem_append.mp (covers v u vu) with earlier | later
  · obtain ⟨first, second, split⟩ := append_of_mem earlier
    rw [split, append_assoc, cons_append] at topological nodup
    have vFirst := topological first u _ rfl v vu
    rw [nodup_append] at nodup
    exact (nodup.2.2 v vFirst v (by simp) rfl).elim
  · rcases mem_cons.mp later with rfl | later
    · have selfEarlier := topological _ u _ rfl u vu
      rw [nodup_append] at nodup
      exact (nodup.2.2 u selfEarlier u (by simp) rfl).elim
    · simpa using later

end

/-- Every nonempty list has a vertex without sources in it. -/
theorem Acyclic.exists_source (acyclic : Acyclic edge) {vertices : List V}
    (nonempty : vertices ≠ []) :
    ∃ v ∈ vertices, ∀ u ∈ vertices, ¬ edge u v := by
  let walk : {v // v ∈ vertices} → {v // v ∈ vertices} → Prop :=
    fun u v => TransGen edge u.1 v.1
  have trans : IsTrans _ walk := ⟨fun _ _ _ left right => left.trans right⟩
  have irrefl : Std.Irrefl walk := ⟨fun v => acyclic v.1⟩
  have finite : Finite {v // v ∈ vertices} := finite_toSet vertices
  have wellFounded : WellFounded walk := Finite.wellFounded_of_trans_of_irrefl walk
  obtain ⟨first, member⟩ := exists_mem_of_ne_nil vertices nonempty
  obtain ⟨source, -, minimal⟩ :=
    wellFounded.has_min Set.univ ⟨⟨first, member⟩, trivial⟩
  refine ⟨source.1, source.2, fun u uMem uv => ?_⟩
  exact minimal ⟨u, uMem⟩ trivial (TransGen.single uv)

end DubEcosystem.AcyclicOrders
