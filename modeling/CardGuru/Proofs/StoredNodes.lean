import CardGuru.Firebase.Database
import CardGuru.Firebase.DictionaryContents
import CardGuru.Firebase.SnapshotNode

/-! The nodes of the client behave as trees with ordered children, whatever form their dictionaries have. -/

namespace CardGuru

variable {N K V : Type*} [LinearOrder K]

namespace SnapshotNode

/-- A node keeps a tree: the same value, or the same keys with nodes that keep the subtrees. -/
inductive Keeps : SnapshotNode K V → KeyTree K V → Prop where
  | leaf (value : V) : Keeps (.leafNode value) (.leaf value)
  | children {children : ImmutableSortedDictionary K (SnapshotNode K V)} {entries : List (K × KeyTree K V)}
      (wellFormed : children.WellFormed) (keys : children.contents.map Prod.fst = entries.map Prod.fst)
      (below : ∀ {key : K} {child : SnapshotNode K V} {tree : KeyTree K V},
        children.contents.lookup key = some child → entries.lookup key = some tree → Keeps child tree) :
      Keeps (.childrenNode children) (.node entries)

/-- The empty node keeps the empty tree. -/
theorem keeps_emptyNode : Keeps (emptyNode : SnapshotNode K V) .empty :=
  .children ImmutableSortedDictionary.wellFormed_dictionaryWithComparator rfl fun found => (by cases found)

/-- A node is empty when its tree is. -/
theorem Keeps.isEmpty {node : SnapshotNode K V} {tree : KeyTree K V} (keeps : Keeps node tree) :
    node.isEmpty = tree.isEmpty := by
  -- A leaf is never empty, and children are counted in both.
  cases keeps with
  | leaf value => rfl
  | @children children entries wellFormed keys below =>
    rw [SnapshotNode.isEmpty, wellFormed.isEmpty, KeyTree.isEmpty, ← List.isEmpty_map, keys, List.isEmpty_map]

/-- The child under a key keeps the subtree under this key. -/
theorem Keeps.getImmediateChild {node : SnapshotNode K V} {tree : KeyTree K V} (keeps : Keeps node tree) (key : K) :
    Keeps (node.getImmediateChild key) (tree.child key) := by
  cases keeps with
  | leaf value => exact keeps_emptyNode
  | @children children entries wellFormed keys below =>
    rw [SnapshotNode.getImmediateChild, wellFormed.get, KeyTree.child, KeyTree.entries_node]
    -- The key is in both or in neither.
    rcases Entries.lookup_of_keys keys key with ⟨absent, missing⟩ | ⟨child, subtree, found, stored⟩
    · rw [absent, missing]
      exact keeps_emptyNode
    · rw [found, stored]
      exact below found stored

/-- The node at a path keeps the subtree at this path. -/
theorem Keeps.getChild {node : SnapshotNode K V} {tree : KeyTree K V} (keeps : Keeps node tree) (path : List K) :
    Keeps (node.getChild path) (tree.get path) := by
  -- One step of the path after the other.
  induction path generalizing node tree with
  | nil => exact keeps
  | cons front path ih => exact ih (keeps.getImmediateChild front)

/-! ### Updates -/

variable {node newChildNode : SnapshotNode K V} {tree replacement : KeyTree K V}

/-- The dictionary of children without a key keeps the subtrees under the other keys. -/
theorem keeps_removeKey {children : ImmutableSortedDictionary K (SnapshotNode K V)}
    {entries : List (K × KeyTree K V)} (keeps : Keeps (.childrenNode children) (.node entries)) (key : K) :
    Keeps (.childrenNode (children.removeKey key)) (.node (Entries.drop key entries)) := by
  cases keeps with
  | children wellFormed keys below =>
    obtain ⟨kept, contents⟩ := wellFormed.removeKey key
    refine .children kept ?_ ?_
    · rw [contents, Entries.map_fst_drop, Entries.map_fst_drop, keys]
    · intro other child subtree found stored
      rw [contents] at found
      -- Nothing is found under the removed key.
      have different : other ≠ key := by
        rintro rfl
        rw [Entries.lookup_drop_self] at found
        cases found
      rw [Entries.lookup_drop_ne different] at found stored
      exact below found stored

/-- The dictionary of children with a node under a key keeps the subtree that the node keeps. -/
theorem keeps_insertKey {children : ImmutableSortedDictionary K (SnapshotNode K V)}
    {entries : List (K × KeyTree K V)} (keeps : Keeps (.childrenNode children) (.node entries)) (key : K)
    (inserted : Keeps newChildNode replacement) :
    ∃ after, children.insertKey key newChildNode = .ok after ∧
      Keeps (.childrenNode after) (.node (Entries.put key replacement entries)) := by
  cases keeps with
  | children wellFormed keys below =>
    obtain ⟨after, done, kept, contents⟩ := wellFormed.insertKey key newChildNode
    refine ⟨after, done, .children kept ?_ ?_⟩
    · rw [contents]
      exact Entries.put_keys keys key newChildNode replacement
    · intro other child subtree found stored
      rw [contents] at found
      -- The other children are the ones from before.
      by_cases same : other = key
      · subst same
        rw [Entries.lookup_put_self] at found stored
        cases found
        cases stored
        exact inserted
      · rw [Entries.lookup_put_ne same] at found stored
        exact below found stored

/-- Updating the dictionary of children. -/
theorem keeps_updateChildren {children : ImmutableSortedDictionary K (SnapshotNode K V)}
    {entries : List (K × KeyTree K V)} (keeps : Keeps (.childrenNode children) (.node entries)) (key : K)
    (inserted : Keeps newChildNode replacement) :
    ∃ after, updateChildren children key newChildNode = .ok after ∧
      Keeps after ((KeyTree.node entries).setChild key replacement) := by
  rw [updateChildren, inserted.isEmpty]
  -- A dictionary that has become empty is replaced by the empty node.
  have normalized : ∀ {newChildren : ImmutableSortedDictionary K (SnapshotNode K V)}
      {entries : List (K × KeyTree K V)}, Keeps (.childrenNode newChildren) (.node entries) →
      Keeps (if newChildren.isEmpty then emptyNode else .childrenNode newChildren) (.node entries) := by
    intro newChildren entries keeps
    split
    · rename_i nothing
      have empty : (KeyTree.node entries).isEmpty = true := keeps.isEmpty.symm.trans nothing
      rw [KeyTree.isEmpty_iff.mp empty]
      exact keeps_emptyNode
    · exact keeps
  cases empty : replacement.isEmpty with
  | true =>
    refine ⟨_, rfl, ?_⟩
    rw [KeyTree.setChild, if_pos empty]
    exact normalized (keeps_removeKey keeps key)
  | false =>
    obtain ⟨after, done, kept⟩ := keeps_insertKey keeps key inserted
    have stored : (KeyTree.node entries).setChild key replacement = .node (Entries.put key replacement entries) := by
      rw [KeyTree.setChild, empty]
      rfl
    refine ⟨_, ?_, stored ▸ normalized kept⟩
    rw [done]
    rfl

/-- Updating a child raises nothing and replaces the subtree under the key. -/
theorem Keeps.updateImmediateChild (keeps : Keeps node tree) (key : K) (inserted : Keeps newChildNode replacement) :
    ∃ after, node.updateImmediateChild key newChildNode = .ok after ∧
      Keeps after (tree.setChild key replacement) := by
  cases keeps with
  | children wellFormed keys below => exact keeps_updateChildren (.children wellFormed keys below) key inserted
  | leaf value =>
    rw [SnapshotNode.updateImmediateChild, inserted.isEmpty]
    cases empty : replacement.isEmpty with
    | true =>
      refine ⟨_, rfl, ?_⟩
      rw [KeyTree.setChild, if_pos empty]
      exact .leaf value
    | false =>
      -- The children are those of the empty tree.
      obtain ⟨after, done, kept⟩ := keeps_updateChildren keeps_emptyNode key inserted
      have same : (KeyTree.leaf value).setChild key replacement = (KeyTree.node []).setChild key replacement := by
        simp [KeyTree.setChild, empty]
      exact ⟨after, done, same ▸ kept⟩

/-- Removing below a value leaves the value. -/
theorem set_leaf_of_isEmpty (value : V) (front : K) (path : List K) (nothing : replacement.isEmpty = true) :
    (KeyTree.leaf value).set (front :: path) replacement = .leaf value := by
  -- A leaf has no children, so nothing is removed.
  rw [KeyTree.set_cons, KeyTree.child_leaf, KeyTree.isEmpty_iff.mp nothing, KeyTree.set_empty_empty,
    KeyTree.setChild, if_pos KeyTree.isEmpty_empty]

/-- Updating at a path raises nothing and replaces the subtree at this path. -/
theorem Keeps.updateChild (inserted : Keeps newChildNode replacement) (path : List K) :
    ∀ {node : SnapshotNode K V} {tree : KeyTree K V}, Keeps node tree →
      ∃ after, node.updateChild path newChildNode = .ok after ∧ Keeps after (tree.set path replacement) := by
  induction path with
  | nil =>
    intro node tree _
    exact ⟨newChildNode, rfl, inserted⟩
  | cons front path ih =>
    intro node tree keeps
    cases keeps with
    -- A leaf becomes a node with one child, unless nothing is stored.
    | leaf value =>
      rw [SnapshotNode.updateChild, inserted.isEmpty]
      cases empty : replacement.isEmpty with
      | true =>
        refine ⟨_, rfl, ?_⟩
        rw [set_leaf_of_isEmpty value front path empty]
        exact .leaf value
      | false =>
        obtain ⟨child, updated, kept⟩ := ih keeps_emptyNode
        obtain ⟨after, done, whole⟩ := (Keeps.leaf value).updateImmediateChild front kept
        refine ⟨after, ?_, whole⟩
        rw [if_neg Bool.false_ne_true, updated]
        exact done
    | children wellFormed keys below =>
      have keeps := Keeps.children wellFormed keys below
      obtain ⟨child, updated, kept⟩ := ih (keeps.getImmediateChild front)
      obtain ⟨after, done, whole⟩ := keeps.updateImmediateChild front kept
      refine ⟨after, ?_, whole⟩
      rw [SnapshotNode.updateChild, updated]
      exact done

/-! ### Runs -/

/-- Update a node at several paths, one after the other. -/
def updateAll (node : SnapshotNode K V) :
    List (List K × SnapshotNode K V) → Except SortedDictionaryFault (SnapshotNode K V)
  | [] => .ok node
  | (path, newChildNode) :: updates => do
    -- Each update works on what the one before made.
    let after ← node.updateChild path newChildNode
    updateAll after updates

/-- The update of a node at a path of names, and of the tree that it keeps. -/
structure Update (N K V : Type*) [LinearOrder K] where
  path : List N
  newChildNode : SnapshotNode K V
  replacement : KeyTree K V
  keeps : Keeps newChildNode replacement

namespace Update

/-- Store a value. -/
def leaf (path : List N) (value : V) : Update N K V := ⟨path, .leafNode value, .leaf value, .leaf value⟩

/-- Remove what is there. -/
def removal (path : List N) : Update N K V := ⟨path, emptyNode, .empty, keeps_emptyNode⟩

/-- Update a node, with every name at its place. -/
def onNode (place : N → K) (update : Update N K V) : List K × SnapshotNode K V :=
  (update.path.map place, update.newChildNode)

/-- Update a tree. -/
def onTree (place : N → K) (tree : KeyTree K V) (update : Update N K V) : KeyTree K V :=
  tree.set (update.path.map place) update.replacement

end Update

/-- Updates raise nothing, and replace the subtrees at their paths one after the other. -/
theorem Keeps.updateAll (keeps : Keeps node tree) (place : N → K) (updates : List (Update N K V)) :
    ∃ after, SnapshotNode.updateAll node (updates.map (Update.onNode place)) = .ok after ∧
      Keeps after (updates.foldl (Update.onTree place) tree) := by
  induction updates generalizing node tree with
  | nil => exact ⟨node, rfl, keeps⟩
  | cons update updates ih =>
    -- Both sides update along the places of the names.
    obtain ⟨next, updated, kept⟩ := update.keeps.updateChild (update.path.map place) keeps
    obtain ⟨after, done, final⟩ := ih kept
    refine ⟨after, ?_, final⟩
    rw [List.map_cons, Update.onNode, SnapshotNode.updateAll, updated]
    exact done

/-- What can be seen of a node: whether it is empty, its value, and the keys of its children in order. -/
structure SameView (node : SnapshotNode K V) (tree : KeyTree K V) : Prop where
  isEmpty : node.isEmpty = tree.isEmpty
  value : ∀ value, node = .leafNode value ↔ tree = .leaf value
  keys : (node.enumerateChildren false).map Prod.fst = tree.entries.map Prod.fst
  reverseKeys : (node.enumerateChildren true).map Prod.fst = (tree.entries.map Prod.fst).reverse
  numChildren : node.numChildren = tree.entries.length

/-- A node that keeps a tree looks like it. -/
theorem Keeps.sameView (keeps : Keeps node tree) : SameView node tree := by
  have same := keeps.isEmpty
  cases keeps with
  | leaf value =>
    refine ⟨rfl, fun other => ?_, rfl, rfl, rfl⟩
    rw [leafNode.injEq, KeyTree.leaf.injEq]
  | @children children entries wellFormed keys below =>
    refine ⟨same, fun value => ⟨fun other => (by cases other), fun other => (by cases other)⟩, keys, ?_, ?_⟩
    · rw [enumerateChildren, ImmutableSortedDictionary.enumerate_reverse, List.map_reverse, keys]
      rfl
    · -- As many children as keys.
      have counted := congrArg List.length keys
      rw [List.length_map, List.length_map] at counted
      exact wellFormed.count.trans counted

/-- Whatever is updated in an empty node, every path looks as in the tree that the updates describe. -/
theorem updateAll_sameView (place : N → K) (updates : List (Update N K V)) :
    ∃ after, updateAll emptyNode (updates.map (Update.onNode place)) = .ok after ∧
      ∀ path : List N, SameView (after.getChild (path.map place))
        ((updates.foldl (Update.onTree place) (KeyTree.empty : KeyTree K V)).get (path.map place)) := by
  -- The empty node keeps the empty tree.
  obtain ⟨after, done, keeps⟩ := keeps_emptyNode.updateAll place updates
  exact ⟨after, done, fun path => (keeps.getChild (path.map place)).sameView⟩

/-- A value at `00`, another one at `-0` and a removed one: a single child is left, with the second value. -/
def zeroUpdates : List (Update String (ℕ ×ₗ ℤ ×ₗ ℕ ×ₗ List ℕ) ℕ) :=
  [.leaf ["00"] 1, .leaf ["-0"] 2, .leaf ["a", "b"] 3, .removal ["a", "b"]]

/-- The two spellings of zero name the same child. -/
theorem updateAll_sameView_zeros : ∃ after,
    updateAll emptyNode (zeroUpdates.map (Update.onNode keyPlace)) = .ok after ∧
      after.numChildren = 1 ∧ after.getChild [keyPlace "00"] = .leafNode 2 := by
  obtain ⟨after, done, views⟩ := updateAll_sameView keyPlace zeroUpdates
  -- Both questions are answered by the tree of the theorem.
  refine ⟨after, done, (views []).numChildren.trans (by decide +kernel), ?_⟩
  exact ((views ["00"]).value 2).mpr (by rfl)

end SnapshotNode

end CardGuru
