import CardGuru.Lib.Assign
import CardGuru.Lib.Layers

/-! Writes into a tree as changes of the values along its paths. -/

namespace Layers

variable {K V : Type*} [LinearOrder K]

/-- What a write does with each place: those below its path get new values, and those above it lose
theirs if something is stored. -/
def change (write : List K × KeyTree K V) : List K → Option (Option V) := fun place =>
  if write.1 <+: place then some (write.2.valueAt (place.drop write.1.length))
  else if place <+: write.1 ∧ write.2.isEmpty = false then some none
  -- Other places are left alone.
  else none

/-- An overwrite is the assignment of what it changes. -/
theorem overwrite_eq_assign (write : List K × KeyTree K V) (values : List K → Option V) :
    overwrite write.1 write.2 values = assign (change write) values := by
  funext place
  rw [overwrite, assign_apply, change]
  split
  · rfl
  · split <;> rfl

/-- Performing writes on a tree assigns their changes to its values. -/
theorem valueAt_foldl (writes : List (List K × KeyTree K V)) (tree : KeyTree K V) :
    (writes.foldl (fun tree write => tree.set write.1 write.2) tree).valueAt =
      assignAll (writes.map change) tree.valueAt := by
  induction writes generalizing tree with
  | nil => rfl
  | cons write writes ih =>
    rw [List.foldl_cons, ih, valueAt_set, overwrite_eq_assign]
    rfl

/-- A write below a path does there what it does in the subtree. -/
theorem change_append (path rest place : List K) (node : KeyTree K V) :
    change (path ++ rest, node) (path ++ place) = change (rest, node) place := by
  simp [change, List.prefix_append_right_inj, ← List.drop_drop]

/-- Writes of which neither lies below the other agree on every place. -/
theorem change_agree {first second : List K × KeyTree K V} (forth : first.1 <+: second.1 → first = second)
    (back : second.1 <+: first.1 → second = first) (place : List K) :
    change first place = none ∨ change second place = none ∨ change first place = change second place := by
  by_cases same : first = second
  · exact .inr (.inr (by rw [same]))
  · -- Otherwise no place lies below both paths, or below one and above the other.
    have notForth : ¬ first.1 <+: second.1 := fun inside => same (forth inside)
    have notBack : ¬ second.1 <+: first.1 := fun inside => same (back inside).symm
    by_cases below : first.1 <+: place
    · refine .inr (.inl ?_)
      have notBelow : ¬ second.1 <+: place := fun inside =>
        (List.prefix_or_prefix_of_prefix below inside).elim notForth notBack
      have notAbove : ¬ place <+: second.1 := fun inside => notForth (below.trans inside)
      simp [change, notBelow, notAbove]
    · by_cases other : second.1 <+: place
      · refine .inl ?_
        have notAbove : ¬ place <+: first.1 := fun inside => notBack (other.trans inside)
        simp [change, below, notAbove]
      · rw [change, change, if_neg below, if_neg other]
        split <;> split <;> simp

/-- Writes of which none lies below another may be performed in any order, and any number of times. -/
theorem assignAll_change_congr {first second : List (List K × KeyTree K V)} {values : List K → Option V}
    (members : ∀ write, write ∈ first ↔ write ∈ second)
    (antichain : ∀ one ∈ first, ∀ other ∈ first, one.1 <+: other.1 → one = other) :
    assignAll (first.map change) values = assignAll (second.map change) values := by
  refine assignAll_of_compatible (fun named => ?_) ?_
  · simp only [List.mem_map, members]
  · intro one listed other alsoListed place
    obtain ⟨write, member, rfl⟩ := List.mem_map.mp listed
    obtain ⟨another, alsoMember, rfl⟩ := List.mem_map.mp alsoListed
    exact change_agree (antichain write member another alsoMember)
      (antichain another alsoMember write member) place

end Layers
