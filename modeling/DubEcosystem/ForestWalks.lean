import DubEcosystem.AcyclicOrders

/-!
# Walks through a forest

A walk lists the items of a forest from its roots, each item followed by what is below it.  An item
that was listed is not visited again, so the walk ends whatever the links are; each item that it
lists stands in the block of its parent, and where the links are acyclic it lists every item.
-/

namespace DubEcosystem.ForestWalks

open Relation AcyclicOrders List

variable {Item Key : Type} (key : Item → Key) (kids : Option Key → List Item)

/-- List the kids of a parent that are not listed yet, each with what is below it. -/
def walk [DecidableEq Key] : Nat → Option Key → List Item → List Item
  | 0, _, listed => listed
  | fuel + 1, parent, listed =>
    (kids parent).foldl (fun listed item =>
        if key item ∈ listed.map key then listed
        else walk fuel (some (key item)) (listed ++ [item]))
      listed

def IsKid (lower upper : Key) : Prop :=
  ∃ item ∈ kids (some upper), key item = lower

/-- The items follow their parent, with nothing between but what is below it. -/
def EndsBlock (listed : List Item) (parent : Key) : Prop :=
  ∃ before top inside, listed = before ++ top :: inside ∧ key top = parent ∧
    ∀ other ∈ inside, TransGen (IsKid key kids) (key other) parent

def InBlock (listed : List Item) (item : Item) (parent : Key) : Prop :=
  ∃ before after, listed = before ++ item :: after ∧ EndsBlock key kids before parent

def Placed (listed : List Item) : Prop :=
  ∀ item ∈ listed, ∀ parent, item ∈ kids (some parent) → InBlock key kids listed item parent

variable {key kids}

theorem placed_nil : Placed key kids [] := by
  intro item member
  simp at member

variable {listed : List Item}

theorem InBlock.append {item : Item} {parent : Key}
    (inBlock : InBlock key kids listed item parent) (further : List Item) :
    InBlock key kids (listed ++ further) item parent := by
  obtain ⟨before, after, rfl, ends⟩ := inBlock
  exact ⟨before, after ++ further, by simp, ends⟩

theorem Placed.concat {listed : List Item} {item : Item} (placed : Placed key kids listed)
    (ends : ∀ parent, item ∈ kids (some parent) → EndsBlock key kids listed parent) :
    Placed key kids (listed ++ [item]) := by
  intro other member parent isKid
  rcases mem_append.mp member with old | isLast
  · exact (placed other old parent isKid).append [item]
  · obtain rfl := mem_singleton.mp isLast
    exact ⟨listed, [], rfl, ends parent isKid⟩

theorem EndsBlock.append {further : List Item} {parent : Key}
    (ends : EndsBlock key kids listed parent)
    (below : ∀ other ∈ further, TransGen (IsKid key kids) (key other) parent) :
    EndsBlock key kids (listed ++ further) parent := by
  obtain ⟨before, top, inside, rfl, isTop, areBelow⟩ := ends
  refine ⟨before, top, inside ++ further, by simp, isTop, fun other member => ?_⟩
  rcases mem_append.mp member with old | new
  · exact areBelow other old
  · exact below other new

theorem endsBlock_self (listed : List Item) (item : Item) :
    EndsBlock key kids (listed ++ [item]) (key item) :=
  ⟨listed, item, [], rfl, rfl, by simp⟩

/-- What a walk adds: a block that is placed, of kids below the parent. -/
structure Extends (key : Item → Key) (kids : Option Key → List Item) (parent : Option Key)
    (listed after : List Item) : Prop where
  placed : Placed key kids after
  grows : ∃ block, after = listed ++ block ∧
    ∀ other ∈ block, (∃ itsParent, other ∈ kids itsParent) ∧
      ∀ upper, parent = some upper → TransGen (IsKid key kids) (key other) upper

variable {parent : Option Key}

theorem Extends.refl (placed : Placed key kids listed) :
    Extends key kids parent listed listed :=
  ⟨placed, [], by simp, by simp⟩

variable {first second third : List Item}

theorem Extends.trans
    (earlier : Extends key kids parent first second)
    (later : Extends key kids parent second third) : Extends key kids parent first third := by
  obtain ⟨-, block, rfl, isBelow⟩ := earlier
  obtain ⟨placed, further, rfl, areBelow⟩ := later
  refine ⟨placed, block ++ further, by simp, fun other member => ?_⟩
  rcases mem_append.mp member with old | new
  · exact isBelow other old
  · exact areBelow other new

/-- The parent of the walk has been listed, and nothing since but what is below it. -/
def Ready (key : Item → Key) (kids : Option Key → List Item) (parent : Option Key)
    (listed : List Item) : Prop :=
  ∀ upper, parent = some upper → EndsBlock key kids listed upper

theorem Ready.extends {after : List Item}
    (ready : Ready key kids parent listed) (isExtended : Extends key kids parent listed after) :
    Ready key kids parent after := by
  obtain ⟨-, block, rfl, isBelow⟩ := isExtended
  exact fun upper isUpper => (ready upper isUpper).append fun other member =>
    (isBelow other member).2 upper isUpper

theorem walk_extends [DecidableEq Key]
    (sole : ∀ item first second, item ∈ kids first → item ∈ kids second → first = second)
    (fuel : Nat) {parent : Option Key} {listed : List Item}
    (ready : Ready key kids parent listed) (placed : Placed key kids listed) :
    Extends key kids parent listed (walk key kids fuel parent listed) := by
  induction fuel generalizing parent listed with
  | zero => exact .refl placed
  | succ fuel ih =>
    unfold walk
    suffices folds : ∀ rest : List Item, (∀ item ∈ rest, item ∈ kids parent) →
        Extends key kids parent listed (rest.foldl (fun listed item =>
          if key item ∈ listed.map key then listed
          else walk key kids fuel (some (key item)) (listed ++ [item])) listed) from
      folds (kids parent) fun item member => member
    intro rest areKids
    induction rest generalizing listed with
    | nil => exact .refl placed
    | cons item rest inner =>
      rw [foldl_cons]
      have isKid : item ∈ kids parent := areKids item (.head _)
      have restKids : ∀ other ∈ rest, other ∈ kids parent :=
        fun other member => areKids other (mem_cons_of_mem item member)
      have step : Extends key kids parent listed (if key item ∈ listed.map key then listed
            else walk key kids fuel (some (key item)) (listed ++ [item])) := by
        split
        · exact .refl placed
        · have concat : Placed key kids (listed ++ [item]) := by
            apply placed.concat
            intro upper isUpper
            exact ready upper (sole item parent (some upper) isKid isUpper)
          obtain ⟨isPlaced, block, isBlock, below⟩ := ih
            (fun upper isUpper => Option.some.inj isUpper ▸ endsBlock_self listed item) concat
          have itself : ∀ upper, parent = some upper → IsKid key kids (key item) upper :=
            fun upper isUpper => ⟨item, isUpper ▸ isKid, rfl⟩
          refine ⟨isPlaced, item :: block, by simp [isBlock], fun other member => ?_⟩
          rcases mem_cons.mp member with rfl | member
          · exact ⟨⟨parent, isKid⟩, fun upper isUpper => .single (itself upper isUpper)⟩
          · obtain ⟨itsKid, isBelow⟩ := below other member
            exact ⟨itsKid, fun upper isUpper =>
              (isBelow (key item) rfl).tail (itself upper isUpper)⟩
      exact step.trans (inner (ready.extends step) step.placed restKids)

def Closed (key : Item → Key) (kids : Option Key → List Item) (listed after : List Item) : Prop :=
  ∀ upper ∈ after, key upper ∉ listed.map key →
    ∀ item ∈ kids (some (key upper)), key item ∈ after.map key

variable {all : List Key}

/-- The items of a list, of these keys, each listed once. -/
structure Within (key : Item → Key) (all : List Key) (listed : List Item) : Prop where
  nodup : (listed.map key).Nodup
  subset : ∀ item ∈ listed, key item ∈ all

theorem Within.length_le (within : Within key all listed) : listed.length ≤ all.length := by
  have isSubset : listed.map key ⊆ all := by
    intro listedKey member
    obtain ⟨item, itemMem, rfl⟩ := List.mem_map.mp member
    exact within.subset item itemMem
  simpa using (within.nodup.subperm isSubset).length_le

theorem Within.concat {listed : List Item} {item : Item} (within : Within key all listed)
    (isNew : key item ∉ listed.map key) (isKey : key item ∈ all) :
    Within key all (listed ++ [item]) where
  nodup := by
    rw [map_append, map_singleton]
    exact List.Nodup.append within.nodup (nodup_singleton _) (by simpa using isNew)
  subset := by
    intro other member
    rcases mem_append.mp member with old | isLast
    · exact within.subset other old
    · exact mem_singleton.mp isLast ▸ isKey

/-- What a walk with enough fuel comes to. -/
structure Completes (key : Item → Key) (kids : Option Key → List Item) (all : List Key)
    (listed after : List Item) : Prop where
  within : Within key all after
  grows : listed <+: after
  closed : Closed key kids listed after

theorem Completes.refl (within : Within key all listed) :
    Completes key kids all listed listed :=
  ⟨within, prefix_rfl, fun _ member isNew => absurd (mem_map_of_mem member) isNew⟩

theorem Completes.trans
    (earlier : Completes key kids all first second)
    (later : Completes key kids all second third) : Completes key kids all first third := by
  refine ⟨later.within, earlier.grows.trans later.grows, fun upper member isNew item isKid => ?_⟩
  by_cases isListed : key upper ∈ second.map key
  · obtain ⟨same, sameMem, sameKey⟩ := List.mem_map.mp isListed
    rw [← sameKey] at isKid isNew
    obtain ⟨found, foundMem, isFound⟩ :=
      List.mem_map.mp (earlier.closed same sameMem isNew item isKid)
    exact List.mem_map.mpr ⟨found, later.grows.subset foundMem, isFound⟩
  · exact later.closed upper member isListed item isKid

/-- With enough fuel a walk lists the kids of its parent, and of everything that it lists. -/
theorem walk_completes [DecidableEq Key] (known : ∀ parent, ∀ item ∈ kids parent, key item ∈ all) (fuel : Nat)
    {parent : Option Key} {listed : List Item} (within : Within key all listed)
    (enough : all.length < fuel + listed.length) :
    Completes key kids all listed (walk key kids fuel parent listed) ∧
      ∀ item ∈ kids parent, key item ∈ (walk key kids fuel parent listed).map key := by
  induction fuel generalizing parent listed with
  | zero =>
    have short := within.length_le
    omega
  | succ fuel ih =>
    unfold walk
    have areKnown := known parent
    generalize kids parent = rest at areKnown
    induction rest generalizing listed with
    | nil => exact ⟨.refl within, by simp⟩
    | cons item rest inner =>
      rw [foldl_cons]
      have step : Completes key kids all listed (if key item ∈ listed.map key then listed
            else walk key kids fuel (some (key item)) (listed ++ [item])) ∧
          key item ∈ (if key item ∈ listed.map key then listed
            else walk key kids fuel (some (key item)) (listed ++ [item])).map key := by
        split
        · rename_i isListed
          exact ⟨.refl within, isListed⟩
        · rename_i isNew
          have longer : (listed ++ [item]).length = listed.length + 1 := by simp
          obtain ⟨isComplete, kidsListed⟩ := @ih (some (key item)) _
            (within.concat isNew (areKnown item (.head _))) (by omega)
          have isListed : item ∈ walk key kids fuel (some (key item)) (listed ++ [item]) :=
            isComplete.grows.subset (by simp)
          refine ⟨⟨isComplete.within, (prefix_append _ _).trans isComplete.grows, ?_⟩,
            mem_map_of_mem isListed⟩
          intro upper member upperNew other isKid
          by_cases isItem : key upper = key item
          · rw [isItem] at isKid
            exact kidsListed other isKid
          · exact isComplete.closed upper member (by simp [upperNew, isItem]) other isKid
      generalize (if key item ∈ listed.map key then listed
        else walk key kids fuel (some (key item)) (listed ++ [item])) = middle at step
      obtain ⟨isComplete, isListed⟩ := step
      have notShorter := isComplete.grows.length_le
      obtain ⟨restComplete, restListed⟩ := inner isComplete.within (by omega)
        fun other member => areKnown other (mem_cons_of_mem item member)
      refine ⟨isComplete.trans restComplete, fun other member => ?_⟩
      rcases mem_cons.mp member with rfl | member
      · exact (restComplete.grows.map key).subset isListed
      · exact restListed other member

theorem walk_lists_all [DecidableEq Key] {items : List Item} {parentOf : Item → Option Key}
    (isKids : ∀ item parent, item ∈ kids parent ↔ item ∈ items ∧ parentOf item = parent)
    (parents : ∀ item ∈ items, ∀ upper, parentOf item = some upper →
      ∃ parent ∈ items, key parent = upper)
    (acyclic : Acyclic (IsKid key kids)) {fuel : Nat} (enough : items.length < fuel) :
    ∀ item ∈ items, key item ∈ (walk key kids fuel none []).map key := by
  have within : Within key (items.map key) ([] : List Item) := ⟨by simp, by simp⟩
  obtain ⟨isComplete, rootsListed⟩ := @walk_completes Item Key key kids (items.map key) _
    (fun parent item member => mem_map_of_mem ((isKids item parent).mp member).1) fuel none _ within
    (by simpa using enough)
  generalize walk key kids fuel none [] = listed at isComplete rootsListed
  intro item member
  by_contra notListed
  -- Among the items that are missing there is one whose parent is not.
  let missing := (items.filter fun item => key item ∉ listed.map key).map key
  have isMissing : ∀ item ∈ items, key item ∉ listed.map key → key item ∈ missing := by
    intro item member notListed
    exact mem_map_of_mem (mem_filter.mpr ⟨member, by simpa using notListed⟩)
  obtain ⟨first, firstMem, noParent⟩ := acyclic.swap.exists_source
    (ne_nil_of_mem (isMissing item member notListed))
  obtain ⟨source, sourceMem, rfl⟩ := List.mem_map.mp firstMem
  obtain ⟨isItem, isNew⟩ := mem_filter.mp sourceMem
  apply of_decide_eq_true isNew
  cases isParent : parentOf source with
  | none => exact rootsListed source ((isKids source none).mpr ⟨isItem, isParent⟩)
  | some upper =>
    have isKid : source ∈ kids (some upper) := (isKids source _).mpr ⟨isItem, isParent⟩
    obtain ⟨parent, parentMem, rfl⟩ := parents source isItem upper isParent
    by_cases isListed : key parent ∈ listed.map key
    · obtain ⟨same, sameMem, sameKey⟩ := List.mem_map.mp isListed
      rw [← sameKey] at isKid
      exact isComplete.closed same sameMem (by simp) source isKid
    · exact absurd ⟨source, isKid, rfl⟩ (noParent _ (isMissing parent parentMem isListed))

end DubEcosystem.ForestWalks
