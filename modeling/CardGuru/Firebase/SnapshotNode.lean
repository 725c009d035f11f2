import CardGuru.Firebase.SortedDictionary

/-! The nodes of the database as the client keeps them: values, and sorted dictionaries of children, whose
names are taken up to `compareKey`. -/

namespace CardGuru

/-- A node without priority: a leaf with a value, or children in a sorted dictionary. -/
inductive SnapshotNode (K V : Type*) where
  | leafNode (value : V)
  | childrenNode (children : ImmutableSortedDictionary K (SnapshotNode K V))

namespace SnapshotNode

variable {K V : Type*}

/-- The node without children. -/
def emptyNode : SnapshotNode K V :=
  .childrenNode .dictionaryWithComparator

/-- Whether there is neither a value nor a child. -/
def isEmpty : SnapshotNode K V → Bool
  | leafNode _ => false
  | childrenNode children => children.isEmpty

/-- The number of children. -/
def numChildren : SnapshotNode K V → ℕ
  | leafNode _ => 0
  | childrenNode children => children.count

/-- The children that are passed to a block, one after the other. -/
def enumerateChildren (reverse : Bool) : SnapshotNode K V → List (K × SnapshotNode K V)
  | leafNode _ => []
  | childrenNode children => children.enumerateKeysAndObjectsReverse reverse

variable [LinearOrder K]

/-- The child under a key. -/
def getImmediateChild (key : K) : SnapshotNode K V → SnapshotNode K V
  | leafNode _ => emptyNode
  | childrenNode children => (children.get key).getD emptyNode

/-- The node at a path. -/
def getChild (node : SnapshotNode K V) : List K → SnapshotNode K V
  | [] => node
  | front :: path => (node.getImmediateChild front).getChild path

/-- A copy with another child in the dictionary of children. -/
def updateChildren (children : ImmutableSortedDictionary K (SnapshotNode K V)) (key : K)
    (newChildNode : SnapshotNode K V) : Except SortedDictionaryFault (SnapshotNode K V) := do
  let newChildren ← if newChildNode.isEmpty then .ok (children.removeKey key) else children.insertKey key newChildNode
  return if newChildren.isEmpty then emptyNode else childrenNode newChildren

/-- A copy with another child under a key; an empty child is removed. -/
def updateImmediateChild (node : SnapshotNode K V) (key : K) (newChildNode : SnapshotNode K V) :
    Except SortedDictionaryFault (SnapshotNode K V) :=
  match node with
  | leafNode value =>
    if newChildNode.isEmpty then .ok (leafNode value)
    -- A leaf that gets a child loses its value.
    else updateChildren .dictionaryWithComparator key newChildNode
  | childrenNode children => updateChildren children key newChildNode

/-- A copy with another node at a path. -/
def updateChild (node : SnapshotNode K V) (path : List K) (newChildNode : SnapshotNode K V) :
    Except SortedDictionaryFault (SnapshotNode K V) :=
  match path, node with
  | [], _ => .ok newChildNode
  | front :: path, leafNode value =>
    if newChildNode.isEmpty then .ok (leafNode value)
    else do
      let newImmediateChild ← updateChild emptyNode path newChildNode
      (leafNode value).updateImmediateChild front newImmediateChild
  | front :: path, childrenNode children => do
    let newImmediateChild ← updateChild ((childrenNode children).getImmediateChild front) path newChildNode
    (childrenNode children).updateImmediateChild front newImmediateChild

end SnapshotNode

end CardGuru
