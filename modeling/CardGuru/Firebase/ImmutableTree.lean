import CardGuru.Lib.Layers

/-! The tree in which the database client keeps values at some of its nodes. -/

namespace CardGuru

/-- A tree of named children in which every node may have a value. -/
inductive ImmutableTree (N V : Type*) where
  | mk (value : Option V) (children : List (N × ImmutableTree N V))

namespace ImmutableTree

variable {N V : Type*}

/-- The value of the topmost node. -/
def value : ImmutableTree N V → Option V
  | .mk value _ => value

/-- The children in the order of their names. -/
def children : ImmutableTree N V → List (N × ImmutableTree N V)
  | .mk _ children => children

@[simp] theorem value_mk (value : Option V) (children : List (N × ImmutableTree N V)) :
    (mk value children).value = value := rfl

@[simp] theorem children_mk (value : Option V) (children : List (N × ImmutableTree N V)) :
    (mk value children).children = children := rfl

/-- The tree with a value at its top and nothing below. -/
def withValue (value : V) : ImmutableTree N V := .mk (some value) []

/-- The tree without any value. -/
def empty : ImmutableTree N V := .mk none []

/-- Whether there is neither a value at the top nor a child. -/
def isEmpty (tree : ImmutableTree N V) : Bool :=
  tree.value.isNone && tree.children.isEmpty

mutual

/-- All values with their paths, those of the children before that of their parent. -/
def forEach : ImmutableTree N V → List (List N × V)
  | .mk value children => forEachChild children ++ (value.map fun value => ([], value)).toList

/-- The values below some children. -/
def forEachChild : List (N × ImmutableTree N V) → List (List N × V)
  | [] => []
  | (name, tree) :: rest =>
    (forEach tree).map (fun found => (name :: found.1, found.2)) ++ forEachChild rest

end

/-- What is listed for some children is listed for one of them. -/
theorem mem_forEachChild {children : List (N × ImmutableTree N V)} {path : List N} {value : V} :
    (path, value) ∈ forEachChild children ↔
      ∃ entry ∈ children, ∃ rest, path = entry.1 :: rest ∧ (rest, value) ∈ entry.2.forEach := by
  induction children with
  | nil => simp [forEachChild]
  | cons entry children ih =>
    obtain ⟨name, tree⟩ := entry
    rw [forEachChild, List.mem_append, ih]
    simp only [List.mem_map, Prod.mk.injEq, Prod.exists, List.mem_cons]
    -- Either the path leads into the first child, or into a later one.
    constructor
    · rintro (⟨rest, stored, member, rfl, rfl⟩ | ⟨other, child, member, rest, rfl, found⟩)
      · exact ⟨name, tree, .inl ⟨rfl, rfl⟩, rest, rfl, member⟩
      · exact ⟨other, child, .inr member, rest, rfl, found⟩
    · rintro ⟨other, child, ⟨rfl, rfl⟩ | member, rest, rfl, found⟩
      · exact .inl ⟨rest, value, found, rfl, rfl⟩
      · exact .inr ⟨other, child, member, rest, rfl, found⟩

variable [LinearOrder N]

/-- The value at a path that satisfies a predicate and is nearest to the root. -/
def findRootMostMatchingPath (predicate : V → Bool) (tree : ImmutableTree N V) :
    List N → Option (List N × V)
  | [] => (tree.value.filter predicate).map fun value => ([], value)
  | front :: rest =>
    match tree.value.filter predicate with
    | some value => some ([], value)
    | none =>
      match tree.children.lookup front with
      | some child => (findRootMostMatchingPath predicate child rest).map fun found =>
          (front :: found.1, found.2)
      -- No child matches the path.
      | none => none

/-- The value on a path that is nearest to the root. -/
def findRootMostValueAndPath (tree : ImmutableTree N V) (path : List N) : Option (List N × V) :=
  tree.findRootMostMatchingPath (fun _ => true) path

/-- The subtree at a path. -/
def subtreeAtPath (tree : ImmutableTree N V) : List N → ImmutableTree N V
  | [] => tree
  | front :: rest =>
    match tree.children.lookup front with
    | some child => child.subtreeAtPath rest
    -- There is no value below this path.
    | none => empty

/-- Set the value of the node at a path. -/
def setValue (tree : ImmutableTree N V) (newValue : V) : List N → ImmutableTree N V
  | [] => .mk (some newValue) tree.children
  | front :: rest =>
    -- A missing child is added on the way.
    let child := (tree.children.lookup front).getD empty
    .mk tree.value (Entries.put front (child.setValue newValue rest) tree.children)

/-- Replace the subtree at a path; a child that becomes empty is removed. -/
def setTree (tree newTree : ImmutableTree N V) : List N → ImmutableTree N V
  | [] => newTree
  | front :: rest =>
    let child := (tree.children.lookup front).getD empty
    -- The child is removed when nothing is left of it.
    let newChild := child.setTree newTree rest
    .mk tree.value
      (if newChild.isEmpty then Entries.drop front tree.children
        else Entries.put front newChild tree.children)

/-- The value of the node at a path. -/
def valueAtPath (tree : ImmutableTree N V) : List N → Option V
  | [] => tree.value
  | front :: rest =>
    match tree.children.lookup front with
    | some child => child.valueAtPath rest
    | none => none

@[simp] theorem valueAtPath_nil (tree : ImmutableTree N V) : tree.valueAtPath [] = tree.value := rfl

/-- The value further down belongs to a child, if there is one. -/
theorem valueAtPath_cons (tree : ImmutableTree N V) (front : N) (rest : List N) :
    tree.valueAtPath (front :: rest) =
      ((tree.children.lookup front).getD empty).valueAtPath rest := by
  -- The empty tree has no value anywhere.
  rw [valueAtPath]
  cases tree.children.lookup front with
  | some child => rfl
  | none => cases rest <;> rfl

/-- A tree that counts as empty has no value anywhere. -/
theorem valueAtPath_of_isEmpty {tree : ImmutableTree N V} (nothing : tree.isEmpty = true)
    (path : List N) : tree.valueAtPath path = none := by
  -- It has neither a value nor children.
  simp only [isEmpty, Bool.and_eq_true, Option.isNone_iff_eq_none, List.isEmpty_iff] at nothing
  cases path with
  | nil => exact nothing.1
  | cons front rest => simp [valueAtPath, nothing.2]

@[simp] theorem valueAtPath_empty (path : List N) :
    (empty : ImmutableTree N V).valueAtPath path = none :=
  valueAtPath_of_isEmpty rfl path

/-- A single value is at the top. -/
theorem valueAtPath_withValue (value : V) (path : List N) :
    (withValue value : ImmutableTree N V).valueAtPath path = if path = [] then some value else none := by
  cases path <;> rfl

/-- A subtree has the values below its path. -/
theorem valueAtPath_subtreeAtPath (tree : ImmutableTree N V) (path below : List N) :
    (tree.subtreeAtPath path).valueAtPath below = tree.valueAtPath (path ++ below) := by
  -- The path is walked down, one child after the other.
  induction path generalizing tree with
  | nil => rfl
  | cons front rest ih =>
    rw [subtreeAtPath, List.cons_append, valueAtPath]
    cases tree.children.lookup front with
    | some child => exact ih child
    | none => exact valueAtPath_empty below

/-- A value that is set is read at its path only. -/
theorem valueAtPath_setValue (tree : ImmutableTree N V) (newValue : V) (path place : List N) :
    (tree.setValue newValue path).valueAtPath place =
      if place = path then some newValue else tree.valueAtPath place := by
  induction path generalizing tree place with
  | nil => cases place <;> rfl
  | cons front rest ih =>
    cases place with
    | nil => rfl
    | cons name place =>
      rw [valueAtPath_cons, valueAtPath_cons]
      -- Other children are kept, and so are the values below them.
      by_cases same : name = front
      · subst same
        simp [setValue, ih]
      · simp [setValue, Entries.lookup_put_ne same, same]

/-- After a subtree was replaced its values are read at and below its path. -/
theorem valueAtPath_setTree (tree newTree : ImmutableTree N V) (path place : List N) :
    (tree.setTree newTree path).valueAtPath place =
      if path <+: place then newTree.valueAtPath (place.drop path.length)
      else tree.valueAtPath place := by
  induction path generalizing tree place with
  | nil => simp [setTree]
  | cons front rest ih =>
    cases place with
    | nil => simp [setTree]
    | cons name place =>
      rw [valueAtPath_cons, valueAtPath_cons, List.length_cons, List.drop_succ_cons]
      have deeper := ih ((tree.children.lookup front).getD empty) place
      by_cases same : name = front
      · subst same
        simp only [List.cons_prefix_cons, true_and]
        rw [← deeper, setTree]
        -- A child that is removed had become empty.
        split
        · rename_i nothing
          simp [valueAtPath_of_isEmpty nothing]
        · simp
      · rw [if_neg fun inside => same (List.cons_prefix_cons.mp inside).1.symm, setTree]
        split
        · simp [Entries.lookup_drop_ne same]
        · simp [Entries.lookup_put_ne same]

/-- The search of the tree is the search among its values. -/
theorem findRootMostValueAndPath_eq (tree : ImmutableTree N V) (path : List N) :
    tree.findRootMostValueAndPath path = rootMost tree.valueAtPath path := by
  -- No value is refused by the predicate.
  rw [findRootMostValueAndPath]
  induction path generalizing tree with
  | nil => cases top : tree.value <;> simp [findRootMostMatchingPath, rootMost, top]
  | cons front rest ih =>
    rw [findRootMostMatchingPath, rootMost, valueAtPath_nil]
    cases tree.value with
    | some value => rfl
    | none =>
      have below : (fun place => tree.valueAtPath (front :: place)) =
          ((tree.children.lookup front).getD empty).valueAtPath :=
        funext (valueAtPath_cons tree front)
      simp only [below, ← ih]
      cases tree.children.lookup front with
      | some child => rfl
      | none => cases rest <;> rfl

/-- The children are in the order of their names, at every node. -/
inductive Ordered : ImmutableTree N V → Prop
  | mk {value : Option V} {children : List (N × ImmutableTree N V)} (sorted : Entries.Sorted children)
      (each : ∀ entry ∈ children, Ordered entry.2) : Ordered (.mk value children)

/-- A single value has no children to order. -/
theorem ordered_withValue (value : V) : (withValue value : ImmutableTree N V).Ordered :=
  .mk (by simp [Entries.Sorted]) (by simp)

/-- The empty tree has no children to order. -/
theorem ordered_empty : (empty : ImmutableTree N V).Ordered :=
  .mk (by simp [Entries.Sorted]) (by simp)

/-- The child under a name is ordered, also when it is absent. -/
theorem Ordered.child {tree : ImmutableTree N V} (ordered : tree.Ordered) (name : N) :
    ((tree.children.lookup name).getD ImmutableTree.empty).Ordered := by
  cases ordered with
  | mk sorted each =>
    rw [children_mk]
    -- An absent child is the empty tree.
    cases found : List.lookup name _ with
    | none => exact ordered_empty
    | some child => exact each _ (Entries.mem_of_lookup found)

/-- A child stored under its name keeps a tree ordered. -/
private theorem Ordered.put {tree child : ImmutableTree N V} (ordered : tree.Ordered) (name : N)
    (value : Option V) (childOrdered : child.Ordered) :
    (ImmutableTree.mk value (Entries.put name child tree.children)).Ordered := by
  cases ordered with
  | mk sorted each =>
    -- The names stay in order, and each child is the new one or an old one.
    refine .mk (sorted.put name child) fun entry member => ?_
    rcases Entries.mem_put_keys member with rfl | old
    · exact childOrdered
    · exact each entry old

/-- Setting a value keeps a tree ordered. -/
theorem Ordered.setValue {tree : ImmutableTree N V} (ordered : tree.Ordered) (newValue : V)
    (path : List N) : (tree.setValue newValue path).Ordered := by
  -- Each child on the way is stored again under its own name.
  induction path generalizing tree with
  | nil =>
    cases ordered with
    | mk sorted each => exact .mk sorted each
  | cons front rest ih => exact ordered.put front _ (ih (ordered.child front))

/-- Replacing a subtree by an ordered one keeps a tree ordered. -/
theorem Ordered.setTree {tree newTree : ImmutableTree N V} (ordered : tree.Ordered)
    (newOrdered : newTree.Ordered) (path : List N) : (tree.setTree newTree path).Ordered := by
  induction path generalizing tree with
  | nil => exact newOrdered
  | cons front rest ih =>
    -- The child is dropped or stored again; the others are kept.
    rw [ImmutableTree.setTree]
    split
    · cases ordered with
      | mk sorted each =>
        exact .mk (sorted.drop front) fun entry member => each entry (List.mem_of_mem_filter member)
    · exact ordered.put front _ (ih (ordered.child front))

/-- Subtrees of an ordered tree are ordered. -/
theorem Ordered.subtreeAtPath {tree : ImmutableTree N V} (ordered : tree.Ordered) (path : List N) :
    (tree.subtreeAtPath path).Ordered := by
  induction path generalizing tree with
  | nil => exact ordered
  | cons front rest ih =>
    have child := ordered.child front
    rw [ImmutableTree.subtreeAtPath]
    -- Below a missing child there is the empty tree.
    cases found : tree.children.lookup front with
    | none => exact ordered_empty
    | some subtree =>
      rw [found, Option.getD_some] at child
      exact ih child

/-- In an ordered tree exactly the values read at their paths are listed. -/
theorem Ordered.mem_forEach {tree : ImmutableTree N V} (ordered : tree.Ordered) {path : List N}
    {value : V} : (path, value) ∈ tree.forEach ↔ tree.valueAtPath path = some value := by
  induction ordered generalizing path with
  | @mk top children sorted each ih =>
    rw [forEach, List.mem_append, mem_forEachChild]
    cases path with
    | nil => cases top <;> simp [eq_comm]
    | cons front rest =>
      rw [valueAtPath_cons, children_mk]
      -- Names are distinct, so a listed child is the one that is looked up.
      constructor
      · rintro (⟨⟨name, child⟩, member, below, same, listed⟩ | atTop)
        · cases same
          rw [sorted.lookup_of_mem member, Option.getD_some]
          exact (ih _ member).mp listed
        · cases top <;> simp at atTop
      · intro reads
        cases found : children.lookup front with
        | none => simp [found] at reads
        | some child =>
          rw [found, Option.getD_some] at reads
          have member := Entries.mem_of_lookup found
          exact .inl ⟨_, member, rest, rfl, (ih _ member).mpr reads⟩

end ImmutableTree

end CardGuru
