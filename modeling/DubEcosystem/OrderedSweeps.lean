import DubEcosystem.AcyclicOrders

/-!
# Sweeps along a topological order

A sweep visits the vertices of a topological order once and sets each from the
vertices before it, so that its result solves the equations it was computed
from.  For constraints `bound (S source) ≤ S target` with monotone bounds, a
solution of these equations is the least assignment that meets them.
-/

namespace DubEcosystem.OrderedSweeps

open AcyclicOrders List Function

section Sweep

variable {V β : Type*} [DecidableEq V]

variable (step : (V → β) → V → β → β)

/-- Visit the vertices in order; `step f v old` is the new value at `v`. -/
def sweep (order : List V) (initial : V → β) : V → β :=
  order.foldl (fun f v => update f v (step f v (f v))) initial

theorem sweep_append (first second : List V) (initial : V → β) :
    sweep step (first ++ second) initial = sweep step second (sweep step first initial) :=
  foldl_append

theorem sweep_cons (v : V) (rest : List V) (initial : V → β) : sweep step (v :: rest) initial =
      sweep step rest (update initial v (step initial v (initial v))) :=
  rfl

theorem sweep_of_notMem {order : List V} {v : V} (notMem : v ∉ order) (initial : V → β) :
    sweep step order initial v = initial v := by
  induction order generalizing initial with
  | nil => rfl
  | cons head rest ih =>
    rw [mem_cons, not_or] at notMem
    rw [sweep_cons, ih notMem.2, update_of_ne notMem.1]

/-- If each step reads only sources of its vertex, the result of a sweep solves
the equations of its steps. -/
theorem sweep_eq {edge : V → V → Prop} {step : (V → β) → V → β → β}
    (reads : ∀ f g v old, (∀ u, edge u v → f u = g u) → step f v old = step g v old)
    {order : List V} (topological : Topological edge order)
    (nodup : order.Nodup) (initial : V → β) {v : V} (member : v ∈ order) :
    sweep step order initial v = step (sweep step order initial) v (initial v) := by
  obtain ⟨before, after, rfl⟩ := append_of_mem member
  rw [nodup_append, nodup_cons] at nodup
  obtain ⟨-, ⟨notAfter, -⟩, apart⟩ := nodup
  have notBefore : v ∉ before := fun earlier => apart v earlier v (by simp) rfl
  have atVertex : sweep step (before ++ v :: after) initial v =
      step (sweep step before initial) v (initial v) := by
    rw [sweep_append, sweep_cons, sweep_of_notMem step notAfter,
      update_self, sweep_of_notMem step notBefore]
  rw [atVertex]
  apply reads
  intro u uv
  have earlier := topological before v after rfl u uv
  have notLater : u ∉ v :: after := fun later => apart u earlier u later rfl
  rw [sweep_append, sweep_of_notMem step notLater]

end Sweep

section Constraints

variable {V α : Type*} [DecidableEq V] [LinearOrder α]

/-- The constraint `bound (S source) ≤ S target`. -/
structure Arc (V α : Type*) [Preorder α] where
  source : V
  target : V
  bound : α →o α

/-- Some constraint leads from `u` to `v`. -/
def Leads (arcs : List (Arc V α)) (u v : V) : Prop :=
  ∃ arc ∈ arcs, arc.source = u ∧ arc.target = v

/-- The assignment is at least `lower` on the vertices and meets every
constraint. -/
structure Meets (vertices : List V) (lower : V → α) (arcs : List (Arc V α)) (S : V → α) : Prop where
  lower : ∀ v ∈ vertices, lower v ≤ S v
  arcs : ∀ arc ∈ arcs, arc.bound (S arc.source) ≤ S arc.target

/-- The least value at `v` that the constraints into it allow. -/
def demand (lower : V → α) (arcs : List (Arc V α)) (S : V → α) (v : V) : α :=
  (arcs.filter fun arc => arc.target = v).foldl
    (fun least arc => max least (arc.bound (S arc.source))) (lower v)

theorem foldl_max_le_iff {γ : Type*} {values : List γ} {value : γ → α} {initial limit : α} :
    values.foldl (fun least v => max least (value v)) initial ≤ limit ↔
      initial ≤ limit ∧ ∀ v ∈ values, value v ≤ limit := by
  induction values generalizing initial with
  | nil => simp
  | cons head rest ih =>
    rw [foldl_cons, ih, max_le_iff, forall_mem_cons, and_assoc]

variable {arcs : List (Arc V α)}

theorem demand_le_iff {lower S : V → α} {v : V} {limit : α} :
    demand lower arcs S v ≤ limit ↔ lower v ≤ limit ∧
        ∀ arc ∈ arcs, arc.target = v → arc.bound (S arc.source) ≤ limit := by
  simp [demand, foldl_max_le_iff]

/-- A solution of the equations meets the constraints. -/
theorem meets_of_eq_demand {vertices : List V} {lower S : V → α}
    (solves : ∀ v ∈ vertices, S v = demand lower arcs S v)
    (targets : ∀ arc ∈ arcs, arc.target ∈ vertices) :
    Meets vertices lower arcs S := by
  constructor
  · intro v member
    exact (demand_le_iff.mp (solves v member).ge).1
  · intro arc arcMem
    have solved := solves arc.target (targets arc arcMem)
    exact (demand_le_iff.mp solved.ge).2 arc arcMem rfl

/-- A solution of the equations is below every assignment that meets the
constraints, by induction along the order. -/
theorem le_of_eq_demand {order : List V} {lower S T : V → α}
    (topological : Topological (Leads arcs) order)
    (solves : ∀ v ∈ order, S v = demand lower arcs S v)
    (meets : Meets order lower arcs T) : ∀ v ∈ order, S v ≤ T v := by
  have prefixes : ∀ before after, order = before ++ after → ∀ v ∈ before, S v ≤ T v := by
    intro before
    induction before using List.reverseRecOn with
    | nil =>
      intro after _ v member
      cases member
    | append_singleton before last ih =>
      intro after cut v member
      rw [append_assoc, singleton_append] at cut
      rcases mem_append.mp member with earlier | isLast
      · exact ih (last :: after) cut v earlier
      · obtain rfl := mem_singleton.mp isLast
        have inOrder : v ∈ order := by simp [cut]
        rw [solves v inOrder, demand_le_iff]
        refine ⟨meets.lower v inOrder, ?_⟩
        rintro arc arcMem rfl
        have sourceEarlier := topological before arc.target after cut arc.source
          ⟨arc, arcMem, rfl, rfl⟩
        have below := ih (arc.target :: after) cut arc.source sourceEarlier
        exact (arc.bound.monotone below).trans (meets.arcs arc arcMem)
  exact prefixes order [] (by simp)

end Constraints

end DubEcosystem.OrderedSweeps
