import CardGuru.Lib.Entries

/-! Trees of keyed children with values at their leaves, read and written along paths. -/

/-- A value, or children kept in key order. -/
inductive KeyTree (K V : Type*) where
  /-- A value without children. -/
  | leaf (value : V)
  /-- Children by key; no children at all is the empty tree. -/
  | node (entries : List (K × KeyTree K V))

namespace KeyTree

variable {K V : Type*}

/-- The tree holding nothing. -/
def empty : KeyTree K V :=
  -- Nothing stored and no children are the same tree.
  .node []

/-- Whether nothing is stored. -/
def isEmpty : KeyTree K V → Bool
  -- A leaf always stores its value.
  | .leaf _ => false
  | .node entries => entries.isEmpty

/-- The children in key order; a leaf has none. -/
def entries : KeyTree K V → List (K × KeyTree K V)
  -- A value has no children to enumerate.
  | .leaf _ => []
  | .node entries => entries

@[simp] theorem entries_leaf (value : V) : (leaf value : KeyTree K V).entries = [] := rfl

@[simp] theorem entries_node (children : List (K × KeyTree K V)) :
    (node children).entries = children := rfl

@[simp] theorem entries_empty : (empty : KeyTree K V).entries = [] := rfl

@[simp] theorem isEmpty_leaf (value : V) : (leaf value : KeyTree K V).isEmpty = false := rfl

@[simp] theorem isEmpty_empty : (empty : KeyTree K V).isEmpty = true := rfl

/-- Only the empty tree stores nothing. -/
theorem isEmpty_iff {tree : KeyTree K V} : tree.isEmpty = true ↔ tree = empty := by
  -- A node without children is the empty tree itself.
  cases tree with
  | leaf value => simp [isEmpty, empty]
  | node children => simp [isEmpty, empty]

variable [LinearOrder K]

/-- The child under a key; an absent key reads as the empty tree. -/
def child (tree : KeyTree K V) (key : K) : KeyTree K V :=
  -- Leaves have no children, so every key of a leaf is absent.
  (tree.entries.lookup key).getD empty

/-- Replace the child under a key; storing the empty tree removes it. -/
def setChild (tree : KeyTree K V) (key : K) (replacement : KeyTree K V) : KeyTree K V :=
  if replacement.isEmpty then
    match tree with
    -- Removing a child of a value leaves the value.
    | .leaf value => .leaf value
    | .node entries => .node (Entries.drop key entries)
  -- A value that gets a child stops being a value.
  else .node (Entries.put key replacement tree.entries)

/-- The subtree at a path. -/
def get (tree : KeyTree K V) : List K → KeyTree K V
  -- Paths through absent children end in the empty tree.
  | [] => tree
  | key :: path => (tree.child key).get path

/-- Replace the subtree at a path. -/
def set (tree : KeyTree K V) : List K → KeyTree K V → KeyTree K V
  -- Ancestors are rebuilt, and ancestors left without children disappear.
  | [], replacement => replacement
  | key :: path, replacement => tree.setChild key ((tree.child key).set path replacement)

@[simp] theorem get_nil (tree : KeyTree K V) : tree.get [] = tree := rfl

@[simp] theorem get_cons (tree : KeyTree K V) (key : K) (path : List K) :
    tree.get (key :: path) = (tree.child key).get path := rfl

@[simp] theorem set_nil (tree replacement : KeyTree K V) : tree.set [] replacement = replacement := rfl

@[simp] theorem set_cons (tree : KeyTree K V) (key : K) (path : List K) (replacement : KeyTree K V) :
    tree.set (key :: path) replacement =
      tree.setChild key ((tree.child key).set path replacement) := rfl

@[simp] theorem child_leaf (value : V) (key : K) : (leaf value : KeyTree K V).child key = empty := rfl

@[simp] theorem child_empty (key : K) : (empty : KeyTree K V).child key = empty := rfl

/-- Every path below the empty tree is empty. -/
@[simp] theorem get_empty (path : List K) : (empty : KeyTree K V).get path = empty := by
  -- No key on the way has a child.
  induction path with
  | nil => rfl
  | cons key path ih => simpa using ih

/-- Every proper path below a value is empty. -/
theorem get_leaf_of_ne_nil (value : V) {path : List K} (proper : path ≠ []) :
    (leaf value : KeyTree K V).get path = empty := by
  -- The first key already leads nowhere.
  cases path with
  | nil => exact absurd rfl proper
  | cons key path => simp

/-- Reading a composed path reads its parts in turn. -/
theorem get_append (tree : KeyTree K V) (first second : List K) :
    tree.get (first ++ second) = (tree.get first).get second := by
  -- The descent passes through the end of the first part.
  induction first generalizing tree with
  | nil => rfl
  | cons key first ih => simpa using ih (tree.child key)

/-- The replaced child is what its key reads. -/
@[simp] theorem child_setChild_self (tree : KeyTree K V) (key : K) (replacement : KeyTree K V) :
    (tree.setChild key replacement).child key = replacement := by
  -- An empty replacement removes the key, which then reads as the empty tree.
  by_cases nothing : replacement.isEmpty
  · rw [isEmpty_iff.mp nothing]
    cases tree <;> simp [setChild, child]
  · simp [setChild, nothing, child]

/-- Replacing one child leaves its siblings alone. -/
theorem child_setChild_ne (tree : KeyTree K V) {key other : K} (different : other ≠ key)
    (replacement : KeyTree K V) : (tree.setChild key replacement).child other = tree.child other := by
  -- Both the removal and the store keep the readings of other keys.
  by_cases nothing : replacement.isEmpty
  · cases tree with
    | leaf value => simp [setChild, nothing]
    | node children => simp [setChild, nothing, child, Entries.lookup_drop_ne different]
  · simp [setChild, nothing, child, Entries.lookup_put_ne different]

/-- At and below a written path the replacement is read. -/
theorem get_set_append (tree : KeyTree K V) (path below : List K) (replacement : KeyTree K V) :
    (tree.set path replacement).get (path ++ below) = replacement.get below := by
  -- Each rebuilt ancestor returns the child that was just stored.
  induction path generalizing tree with
  | nil => rfl
  | cons key path ih => simpa using ih (tree.child key)

/-- A written path reads as its replacement. -/
@[simp] theorem get_set_self (tree : KeyTree K V) (path : List K) (replacement : KeyTree K V) :
    (tree.set path replacement).get path = replacement := by
  -- This is the case of nothing below the path.
  simpa using get_set_append tree path [] replacement

/-- Above a written path the ancestor is read with the write applied to it. -/
theorem get_set_of_append (tree : KeyTree K V) (above path : List K) (replacement : KeyTree K V) :
    (tree.set (above ++ path) replacement).get above = (tree.get above).set path replacement := by
  -- The write passes through the ancestor on its way down.
  induction above generalizing tree with
  | nil => rfl
  | cons key above ih => simpa using ih (tree.child key)

/-- Paths of which neither continues the other are independent. -/
theorem get_set_disjoint (tree : KeyTree K V) {path other : List K}
    (notBelow : ¬ path <+: other) (notAbove : ¬ other <+: path) (replacement : KeyTree K V) :
    (tree.set path replacement).get other = tree.get other := by
  -- Descend the common part; the paths then branch at different keys.
  induction path generalizing tree other with
  | nil => exact absurd (List.nil_prefix) notBelow
  | cons key path ih =>
    cases other with
    | nil => exact absurd (List.nil_prefix) notAbove
    | cons step other =>
      by_cases same : step = key
      · subst same
        have deeper := @ih (tree.child step) other
          (fun continued => notBelow (List.cons_prefix_cons.mpr ⟨rfl, continued⟩))
          (fun continued => notAbove (List.cons_prefix_cons.mpr ⟨rfl, continued⟩))
        simpa using deeper
      · simp [child_setChild_ne tree same]

/-- Removing anything from the empty tree leaves it empty. -/
@[simp] theorem set_empty_empty (path : List K) : (empty : KeyTree K V).set path empty = empty := by
  -- Every ancestor rebuilt on the way is left without children.
  induction path with
  | nil => rfl
  | cons key path ih =>
    rw [set_cons, child_empty, ih]
    rfl

/-- Something stored below a path makes the path nonempty. -/
theorem not_isEmpty_of_below (tree : KeyTree K V) (above below : List K)
    (present : (tree.get (above ++ below)).isEmpty = false) : (tree.get above).isEmpty = false := by
  -- An empty ancestor would make every path below it empty.
  by_contra nothing
  rw [Bool.not_eq_false, isEmpty_iff] at nothing
  rw [get_append, nothing, get_empty, isEmpty_empty] at present
  exact Bool.noConfusion present

/-- Children strictly ordered by key, and no empty child stored, at every level. -/
inductive Canonical : KeyTree K V → Prop
  /-- A value has no children to order. -/
  | leaf (value : V) : Canonical (.leaf value)
  /-- The stored children are ordered, nonempty and canonical themselves. -/
  | node {children : List (K × KeyTree K V)} (sorted : Entries.Sorted children)
      (present : ∀ entry ∈ children, entry.2.isEmpty = false)
      (each : ∀ entry ∈ children, Canonical entry.2) : Canonical (.node children)

/-- The empty tree is canonical. -/
theorem canonical_empty : Canonical (empty : KeyTree K V) :=
  -- There is no child to check.
  .node (by simp [Entries.Sorted]) (by simp) (by simp)

/-- The children of a canonical tree are strictly ordered. -/
theorem Canonical.sorted {tree : KeyTree K V} (canonical : Canonical tree) :
    Entries.Sorted tree.entries := by
  -- A value has no children.
  cases canonical with
  | leaf value => simp [Entries.Sorted]
  | node sorted _ _ => exact sorted

/-- Every stored child of a canonical tree is nonempty and canonical. -/
theorem Canonical.of_mem {tree : KeyTree K V} (canonical : Canonical tree)
    {entry : K × KeyTree K V} (member : entry ∈ tree.entries) :
    entry.2.isEmpty = false ∧ Canonical entry.2 := by
  -- Only a node has members.
  cases canonical with
  | leaf value => simp at member
  | node _ present each => exact ⟨present entry member, each entry member⟩

/-- Reading a child of a canonical tree gives a canonical tree. -/
theorem Canonical.child {tree : KeyTree K V} (canonical : Canonical tree) (key : K) :
    Canonical (tree.child key) := by
  -- A present child is stored in the list, and an absent one reads as the empty tree.
  unfold KeyTree.child
  cases found : tree.entries.lookup key with
  | none => exact canonical_empty
  | some value => exact (canonical.of_mem (Entries.mem_of_lookup found)).2

/-- Reading a path of a canonical tree gives a canonical tree. -/
theorem Canonical.get {tree : KeyTree K V} (canonical : Canonical tree) (path : List K) :
    Canonical (tree.get path) := by
  -- Each step of the descent reads one child.
  induction path generalizing tree with
  | nil => exact canonical
  | cons key path ih => exact ih (canonical.child key)

/-- Replacing a child by a canonical tree keeps the tree canonical. -/
theorem Canonical.setChild {tree replacement : KeyTree K V} (canonical : Canonical tree)
    (key : K) (replaced : Canonical replacement) : Canonical (tree.setChild key replacement) := by
  -- An empty replacement only removes, and a nonempty one is stored at its ordered position.
  unfold KeyTree.setChild
  split
  · cases canonical with
    | leaf value => exact .leaf value
    | node sorted present each =>
      exact .node (sorted.drop key) (fun entry member => present entry (List.mem_of_mem_filter member))
        (fun entry member => each entry (List.mem_of_mem_filter member))
  · rename_i nonempty
    have stored : ∀ entry ∈ Entries.put key replacement tree.entries,
        entry.2.isEmpty = false ∧ Canonical entry.2 := by
      intro entry member
      rcases Entries.mem_put_keys member with rfl | old
      · exact ⟨by simpa using nonempty, replaced⟩
      · exact canonical.of_mem old
    exact .node (canonical.sorted.put key replacement) (fun entry member => (stored entry member).1)
      (fun entry member => (stored entry member).2)

/-- Replacing a subtree by a canonical tree keeps the tree canonical. -/
theorem Canonical.set {tree replacement : KeyTree K V} (canonical : Canonical tree)
    (path : List K) (replaced : Canonical replacement) : Canonical (tree.set path replacement) := by
  -- Each ancestor gets one rebuilt child.
  induction path generalizing tree with
  | nil => exact replaced
  | cons key path ih => exact canonical.setChild key (ih (canonical.child key))

/-- A stored child of a canonical tree is what its key reads. -/
theorem Canonical.child_of_mem {tree : KeyTree K V} (canonical : Canonical tree) {key : K}
    {value : KeyTree K V} (member : (key, value) ∈ tree.entries) : tree.child key = value := by
  -- Keys occur once.
  rw [KeyTree.child, canonical.sorted.lookup_of_mem member, Option.getD_some]

/-- What a key reads is stored under it, unless it is the empty tree. -/
theorem mem_entries_of_child {tree : KeyTree K V} {key : K}
    (present : (tree.child key).isEmpty = false) : (key, tree.child key) ∈ tree.entries := by
  -- An absent key reads as the empty tree.
  unfold child at present ⊢
  cases looked : tree.entries.lookup key with
  | none => simp [looked] at present
  | some value => exact Entries.mem_of_lookup looked

/-- The children left after one was removed. -/
theorem entries_setChild_empty (tree : KeyTree K V) (key : K) :
    (tree.setChild key empty).entries = tree.entries.filter fun entry => entry.1 ≠ key := by
  -- A value has no children before or after.
  cases tree with
  | leaf value => simp [setChild]
  | node children => simp [setChild, Entries.drop]

section Decoding

variable {W : Type*} {decode : K × KeyTree K V → Option W} {tree replacement : KeyTree K V} {key : K}

/-- What is decoded from the children after a present one was replaced. -/
theorem Canonical.filterMap_setChild_of_present (canonical : Canonical tree)
    (present : (tree.child key).isEmpty = false) (nonempty : replacement.isEmpty = false)
    {change : W → W}
    (decoded : decode (key, replacement) = (decode (key, tree.child key)).map change) :
    (tree.setChild key replacement).entries.filterMap decode =
      tree.entries.filterMap fun entry =>
        if entry.1 = key then (decode entry).map change else decode entry := by
  have found : tree.entries.lookup key = some (tree.child key) :=
    canonical.sorted.lookup_of_mem (mem_entries_of_child present)
  simpa [KeyTree.setChild, nonempty] using canonical.sorted.filterMap_put_of_lookup found decoded

/-- A child stored under a new key is decoded last if no later child decodes. -/
theorem Canonical.filterMap_setChild_of_absent (canonical : Canonical tree)
    (absent : (tree.child key).isEmpty = true) (nonempty : replacement.isEmpty = false)
    (later : ∀ entry ∈ tree.entries, key < entry.1 → decode entry = none) :
    (tree.setChild key replacement).entries.filterMap decode =
      tree.entries.filterMap decode ++ (decode (key, replacement)).toList := by
  -- A stored child would be nonempty.
  have missing : tree.entries.lookup key = none := by
    cases looked : tree.entries.lookup key with
    | none => rfl
    | some value =>
      have stored := (canonical.of_mem (Entries.mem_of_lookup looked)).1
      simp [KeyTree.child, looked, stored] at absent
  simpa [KeyTree.setChild, nonempty] using
    canonical.sorted.filterMap_put_of_absent missing replacement later

/-- What is decoded from the children depends only on what each key decodes to. -/
theorem Canonical.filterMap_congr {other : KeyTree K V} (canonical : Canonical tree)
    (otherCanonical : Canonical other) (nothing : ∀ key, decode (key, empty) = none)
    (same : ∀ key, decode (key, tree.child key) = decode (key, other.child key)) :
    tree.entries.filterMap decode = other.entries.filterMap decode := by
  -- Paired with their keys, the decoded children form ordered lists with the same members.
  let keyed : KeyTree K V → List (K × W) := fun tree =>
    tree.entries.filterMap fun entry => (decode entry).map (Prod.mk entry.1)
  have forget : ∀ tree : KeyTree K V, tree.entries.filterMap decode = (keyed tree).map Prod.snd := by
    intro tree
    simp [keyed, List.map_filterMap, Function.comp_def]
  have ordered : ∀ {tree : KeyTree K V}, Canonical tree → Entries.Sorted (keyed tree) := by
    intro tree canonical
    unfold Entries.Sorted
    rw [List.pairwise_filterMap]
    refine canonical.sorted.imp ?_
    intro earlier later before first made second madeToo
    obtain ⟨_, _, rfl⟩ := Option.map_eq_some_iff.mp made
    obtain ⟨_, _, rfl⟩ := Option.map_eq_some_iff.mp madeToo
    exact before
  have members : ∀ {tree : KeyTree K V}, Canonical tree →
      ∀ key value, (key, value) ∈ keyed tree ↔ decode (key, tree.child key) = some value := by
    intro tree canonical key value
    constructor
    · intro member
      obtain ⟨⟨stored, subtree⟩, inside, made⟩ := List.mem_filterMap.mp member
      obtain ⟨_, decoded, pair⟩ := Option.map_eq_some_iff.mp made
      cases pair
      rw [canonical.child_of_mem inside]
      exact decoded
    · intro decoded
      have present : (tree.child key).isEmpty = false := by
        by_contra absent
        rw [Bool.not_eq_false, isEmpty_iff] at absent
        rw [absent, nothing] at decoded
        cases decoded
      exact List.mem_filterMap.mpr ⟨_, mem_entries_of_child present, by simp [decoded]⟩
  have equal : keyed tree = keyed other := by
    refine (ordered canonical).ext (ordered otherCanonical) ?_
    intro ⟨key, value⟩
    rw [members canonical, members otherCanonical, same]
  rw [forget, forget, equal]

end Decoding

end KeyTree
