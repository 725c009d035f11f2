import CardGuru.Lib.KeyTree

/-! A tree of keyed children as the values found along its paths. -/

namespace KeyTree

variable {K V : Type*}

/-- The value of a leaf. -/
def value? : KeyTree K V → Option V
  -- Children have no value of their own.
  | .leaf value => some value
  | .node _ => none

@[simp] theorem value?_leaf (value : V) : (leaf value : KeyTree K V).value? = some value := rfl

@[simp] theorem value?_node (children : List (K × KeyTree K V)) : (node children).value? = none := rfl

@[simp] theorem value?_empty : (empty : KeyTree K V).value? = none := rfl

variable [LinearOrder K]

/-- The value found at the end of a path. -/
def valueAt (tree : KeyTree K V) (path : List K) : Option V :=
  -- Most paths end at children or nowhere.
  (tree.get path).value?

@[simp] theorem valueAt_empty (path : List K) : (empty : KeyTree K V).valueAt path = none := by
  simp [valueAt]

@[simp] theorem valueAt_cons (tree : KeyTree K V) (key : K) (path : List K) :
    tree.valueAt (key :: path) = (tree.child key).valueAt path := rfl

/-- The values below a path are those of the subtree. -/
theorem valueAt_get (tree : KeyTree K V) (path below : List K) :
    (tree.get path).valueAt below = tree.valueAt (path ++ below) := by
  rw [valueAt, valueAt, get_append]

/-- Replacing a child by something keeps nothing else at the top. -/
theorem value?_setChild (tree : KeyTree K V) (key : K) (replacement : KeyTree K V) :
    (tree.setChild key replacement).value? = if replacement.isEmpty then tree.value? else none := by
  -- Only the removal of a child leaves a value alone.
  unfold setChild
  split
  · cases tree <;> rfl
  · rfl

/-- A replaced child that is not empty is there afterwards. -/
theorem isEmpty_setChild_of_present (tree : KeyTree K V) (key : K) {replacement : KeyTree K V}
    (present : replacement.isEmpty = false) : (tree.setChild key replacement).isEmpty = false := by
  -- Otherwise its key would read as the empty tree.
  by_contra nothing
  rw [Bool.not_eq_false, isEmpty_iff] at nothing
  have reads := child_setChild_self tree key replacement
  rw [nothing, child_empty] at reads
  rw [← reads, isEmpty_empty] at present
  cases present

/-- Something stored along a path makes the tree nonempty. -/
theorem isEmpty_set_of_present (tree : KeyTree K V) (path : List K) {replacement : KeyTree K V}
    (present : replacement.isEmpty = false) : (tree.set path replacement).isEmpty = false := by
  -- Every ancestor on the way has the child below it.
  induction path generalizing tree with
  | nil => exact present
  | cons key path ih => exact isEmpty_setChild_of_present tree key (ih _)

/-- A write below a tree leaves its own value only if it stores nothing. -/
theorem value?_set_cons (tree : KeyTree K V) (key : K) (path : List K) (replacement : KeyTree K V) :
    (tree.set (key :: path) replacement).value? =
      if replacement.isEmpty then tree.value? else none := by
  rw [set_cons, value?_setChild]
  by_cases nothing : replacement.isEmpty
  · -- A value has nothing below it, and removing something there stores nothing.
    rw [if_pos nothing, isEmpty_iff.mp nothing]
    cases tree with
    | leaf value => simp
    | node children => split <;> rfl
  · rw [Bool.not_eq_true] at nothing
    rw [isEmpty_set_of_present _ path nothing, nothing]

/-- The values after a write: replaced below its path, and gone above it if something is stored. -/
theorem valueAt_set (tree : KeyTree K V) (path place : List K) (replacement : KeyTree K V) :
    (tree.set path replacement).valueAt place =
      if path <+: place then replacement.valueAt (place.drop path.length)
      else if place <+: path ∧ replacement.isEmpty = false then none
      else tree.valueAt place := by
  by_cases below : path <+: place
  · obtain ⟨rest, rfl⟩ := below
    rw [if_pos (List.prefix_append _ _), valueAt, get_set_append, List.drop_left, valueAt]
  · rw [if_neg below]
    by_cases above : place <+: path
    · obtain ⟨rest, rfl⟩ := above
      rw [valueAt, get_set_of_append]
      cases rest with
      | nil => exact absurd ⟨[], by simp⟩ below
      | cons key rest =>
        rw [value?_set_cons]
        cases replacement.isEmpty <;> simp [valueAt]
    · rw [if_neg fun both => above both.1, valueAt, get_set_disjoint tree below above, valueAt]

/-- A canonical tree that is not empty has a value somewhere. -/
theorem Canonical.exists_valueAt {tree : KeyTree K V} (canonical : Canonical tree)
    (present : tree.isEmpty = false) : ∃ path value, tree.valueAt path = some value := by
  -- Every stored child is nonempty, so that the descent only ends at a value.
  induction canonical with
  | leaf value => exact ⟨[], value, rfl⟩
  | @node children sorted stored each ih =>
    cases children with
    | nil => cases present
    | cons entry rest =>
      obtain ⟨path, value, found⟩ := ih entry List.mem_cons_self (stored entry List.mem_cons_self)
      refine ⟨entry.1 :: path, value, ?_⟩
      have reads : (KeyTree.node (entry :: rest)).child entry.1 = entry.2 :=
        (Canonical.node sorted stored each).child_of_mem List.mem_cons_self
      rw [valueAt_cons, reads, found]

/-- Canonical trees with the same children below them have the same entries. -/
private theorem entries_eq_of_child {first second : KeyTree K V} (firstCanonical : Canonical first)
    (secondCanonical : Canonical second) (same : ∀ key, first.child key = second.child key) :
    first.entries = second.entries := by
  -- Decoding every nonempty entry as itself decodes all of them.
  let decode : K × KeyTree K V → Option (K × KeyTree K V) := fun entry =>
    if entry.2.isEmpty then none else some entry
  have all : ∀ {tree : KeyTree K V}, Canonical tree → tree.entries.filterMap decode = tree.entries := by
    intro tree canonical
    rw [List.filterMap_congr (g := some), List.filterMap_some]
    intro entry member
    simp [decode, (canonical.of_mem member).1]
  have decoded : first.entries.filterMap decode = second.entries.filterMap decode :=
    firstCanonical.filterMap_congr secondCanonical (fun key => by simp [decode])
      fun key => by rw [same key]
  rwa [all firstCanonical, all secondCanonical] at decoded

/-- Canonical trees with the same value along every path are the same tree. -/
theorem Canonical.ext_valueAt {first second : KeyTree K V} (firstCanonical : Canonical first)
    (secondCanonical : Canonical second) (same : ∀ path, first.valueAt path = second.valueAt path) :
    first = second := by
  -- A stored child is determined by its values, and an absent one has none.
  induction firstCanonical generalizing second with
  | leaf value =>
    have top := same []
    cases second with
    | leaf other => simpa [valueAt] using top
    | node children => simp [valueAt] at top
  | @node children sorted stored each ih =>
    have firstCanonical : Canonical (KeyTree.node children) := .node sorted stored each
    have children_eq : ∀ key, (KeyTree.node children).child key = second.child key := by
      intro key
      by_cases present : ((KeyTree.node children).child key).isEmpty = false
      · exact ih (key, _) (mem_entries_of_child present) (secondCanonical.child key)
          fun path => by simpa using same (key :: path)
      · rw [Bool.not_eq_false, isEmpty_iff] at present
        by_contra different
        have nonempty : (second.child key).isEmpty = false := by
          by_contra nothing
          rw [Bool.not_eq_false, isEmpty_iff] at nothing
          exact different (present.trans nothing.symm)
        obtain ⟨path, value, found⟩ := (secondCanonical.child key).exists_valueAt nonempty
        have equal := same (key :: path)
        simp [present, found] at equal
    cases second with
    | leaf value =>
      have top := same []
      simp [valueAt] at top
    | node others =>
      have entries := entries_eq_of_child firstCanonical secondCanonical children_eq
      rw [entries_node, entries_node] at entries
      rw [entries]

end KeyTree
