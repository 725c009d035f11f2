import CardGuru.Firebase.LLRBContents
import Mathlib.Data.Nat.Log

/-! Sorted dictionaries that keep their entries in a search tree, and how such a tree is built from the
entries of an unsorted dictionary. -/

namespace CardGuru

/-- What sorted dictionaries raise. -/
inductive SortedDictionaryFault where
  /-- "Can't create FImmutableSortedDictionary with keys with same ordering!" -/
  | sameOrdering
  /-- "getPredecessorKey called with nonexistent key.", from a search tree -/
  | treeNonexistentKey
  /-- "Can't get predecessor key for non-existent key", from an array -/
  | arrayNonexistentKey
  /-- An index beyond the bounds of an array. -/
  | range
deriving DecidableEq

/-- A dictionary whose entries are the nodes of a search tree. -/
structure TreeSortedDictionary (K V : Type*) where
  root : LLRBNode K V

namespace TreeSortedDictionary

variable {K V : Type*}

/-! ### Building a tree -/

/-- The logarithm that gives the number of digits. -/
def logBase2 (num : ℕ) : ℕ :=
  Nat.log2 num

/-- A number in base {1,2}: a binary number and the number of its bits that matter. -/
structure Base12List where
  bits : ℕ
  count : ℕ
  current : ℕ
deriving DecidableEq

/-- The digits of a number, to be read from the most significant one on. -/
def Base12List.new (length : ℕ) : Base12List where
  -- The leading bit is masked out.
  bits := (length + 1) % 2 ^ logBase2 (length + 1)
  count := logBase2 (length + 1)
  current := logBase2 (length + 1) - 1

/-- Whether the next digit is a 1, and the digits after it. -/
def Base12List.next (list : Base12List) : Bool × Base12List :=
  (!list.bits.testBit list.current, { list with current := list.current - 1 })

/-- The entry at an index of the sorted entries. -/
def entryAt (entries : List (K × V)) (index : ℕ) : Except SortedDictionaryFault (K × V) :=
  match entries[index]? with
  | some entry => .ok entry
  -- An array raises for an index outside of it.
  | none => .error .range

/-- A tree of black nodes only, from a segment of the sorted entries. -/
def buildBalancedTree (entries : List (K × V)) (startIndex length : ℕ) :
    Except SortedDictionaryFault (LLRBNode K V) :=
  -- The length is bounded by the entries that are there.
  let bounded := min (entries.length - startIndex) length
  if bounded = 0 then .ok .empty
  else if bounded = 1 then do
    let (key, stored) ← entryAt entries startIndex
    return .value key stored .black .empty .empty
  else do
    let middle := bounded / 2
    let left ← buildBalancedTree entries startIndex middle
    let right ← buildBalancedTree entries (startIndex + middle + 1) middle
    let (key, stored) ← entryAt entries (startIndex + middle)
    return .value key stored .black left right
termination_by length
decreasing_by
  all_goals omega

/-- The last entries of those before an index: the first of them, above a tree of the others on its right. -/
def buildPennant (entries : List (K × V)) (index : ℕ) (color : LLRBColor) (chunkSize : ℕ) :
    Except SortedDictionaryFault (LLRBNode K V) := do
  -- An index below zero wraps around, to one that no array has.
  if index < chunkSize then throw .range
  let (key, stored) ← entryAt entries (index - chunkSize)
  let childTree ← buildBalancedTree entries (index - chunkSize + 1) (chunkSize - 1)
  return .value key stored color .empty childTree

/-- One or two pennants for each of the remaining digits, each of them the left child of the one before. -/
def rootFrom12List (entries : List (K × V)) (list : Base12List) :
    (remaining : ℕ) → (index : ℕ) → Except SortedDictionaryFault (LLRBNode K V)
  | 0, _ => .ok .empty
  | remaining + 1, index => do
    -- The digit 1 stands for one pennant, the digit 2 for two.
    let (isOne, list) := list.next
    let chunkSize := 2 ^ remaining
    let pennant ← buildPennant entries index .black chunkSize
    if isOne then
      let rest ← rootFrom12List entries list remaining (index - chunkSize)
      return pennant.withLeft rest
    else
      -- The second pennant has a red root, so it adds no black node.
      let second ← buildPennant entries (index - chunkSize) .red chunkSize
      let rest ← rootFrom12List entries list remaining (index - chunkSize - chunkSize)
      return pennant.withLeft (second.withLeft rest)

variable [LinearOrder K]

/-- The entries of an unsorted dictionary in the order of their keys; two keys that the comparator calls the
same have one place, and are refused. -/
def sortedEntries (dictionary : List (K × V)) : Except SortedDictionaryFault (List (K × V)) :=
  let sorted := dictionary.mergeSort fun earlier later => earlier.1 ≤ later.1
  if sorted.IsChain fun earlier later => earlier.1 < later.1 then .ok sorted else .error .sameOrdering

/-- A tree with the entries of an unsorted dictionary. -/
def fromDictionary (dictionary : List (K × V)) :
    Except SortedDictionaryFault (TreeSortedDictionary K V) := do
  let sortedKeyList ← sortedEntries dictionary
  -- The digits say how the black nodes are spread over the tree.
  let list := Base12List.new sortedKeyList.length
  return ⟨← rootFrom12List sortedKeyList list list.count sortedKeyList.length⟩

/-! ### The operations -/

/-- What is stored under a key. -/
def get (dictionary : TreeSortedDictionary K V) (key : K) : Option V :=
  dictionary.root.get key

/-- Whether something is stored under a key. -/
def contains (dictionary : TreeSortedDictionary K V) (key : K) : Bool :=
  (dictionary.get key).isSome

/-- A copy with a value stored under a key. -/
def insertKey (dictionary : TreeSortedDictionary K V) (key : K) (stored : V) : TreeSortedDictionary K V :=
  ⟨(dictionary.root.insertKey key stored).withColor .black⟩

/-- A copy without a key; one that is not there is not looked for in the tree. -/
def removeKey (dictionary : TreeSortedDictionary K V) (key : K) : TreeSortedDictionary K V :=
  if dictionary.contains key then ⟨(dictionary.root.remove key).withColor .black⟩ else dictionary

/-- The greatest key below a given one, found on the way down from a node. -/
def predecessorFrom (key : K) (rightParent : Option K) : LLRBNode K V → Except SortedDictionaryFault (Option K)
  | .empty => .error .treeNonexistentKey
  | .value other _ _ left right =>
    if key = other then
      -- Without a left subtree it is the last node where the way went to the right.
      if left.isEmpty then .ok rightParent else .ok left.maxKey
    else if key < other then predecessorFrom key rightParent left
    else predecessorFrom key (some other) right

/-- The greatest key below a given one. -/
def getPredecessorKey (dictionary : TreeSortedDictionary K V) (key : K) :
    Except SortedDictionaryFault (Option K) :=
  predecessorFrom key none dictionary.root

end TreeSortedDictionary

/-! ### Enumerators -/

/-- The nodes that an enumerator returns to, the next one first, and its direction. -/
structure TreeSortedDictionaryEnumerator (K V : Type*) where
  stack : List (LLRBNode K V)
  isReverse : Bool

namespace TreeSortedDictionaryEnumerator

variable {K V : Type*}

/-- The child that comes first in a direction. -/
def nearChild (isReverse : Bool) (node : LLRBNode K V) : LLRBNode K V :=
  if isReverse then node.right else node.left

/-- The child that comes last in a direction. -/
def farChild (isReverse : Bool) (node : LLRBNode K V) : LLRBNode K V :=
  if isReverse then node.left else node.right

/-- Push a node and all that follow it on the near side. -/
def pushAll (isReverse : Bool) : LLRBNode K V → List (LLRBNode K V) → List (LLRBNode K V)
  | .empty, stack => stack
  | .value key stored color left right, stack =>
    let node := LLRBNode.value key stored color left right
    -- The near side of a reverse enumeration is the right one.
    if isReverse then pushAll isReverse right (node :: stack) else pushAll isReverse left (node :: stack)

/-- The next key, and the enumerator after it. -/
def nextObject (enumerator : TreeSortedDictionaryEnumerator K V) :
    Option K × TreeSortedDictionaryEnumerator K V :=
  match enumerator.stack with
  | [] => (none, enumerator)
  | node :: stack =>
    -- The far side of the node comes next.
    (node.key?, { enumerator with
      stack := pushAll enumerator.isReverse (farChild enumerator.isReverse node) stack })

variable [LinearOrder K]

/-- How a key compares to a start key; without a start key it counts as greater. -/
def compareToStart (startKey : Option K) (isReverse : Bool) (key : K) : Ordering :=
  let cmp : Ordering := match startKey with
    | some startKey => compare key startKey
    | none => .gt
  -- The comparison is flipped in the reverse direction, also the one without a start key.
  if isReverse then cmp.swap else cmp

/-- Push the nodes on the way to a start key that are not before it. -/
def pushFrom (startKey : Option K) (isReverse : Bool) :
    LLRBNode K V → List (LLRBNode K V) → List (LLRBNode K V)
  | .empty, stack => stack
  | .value key stored color left right, stack =>
    let node := LLRBNode.value key stored color left right
    match compareToStart startKey isReverse key with
    -- The node is skipped, and its far side may hold what is returned first.
    | .lt => if isReverse then pushFrom startKey isReverse left stack else pushFrom startKey isReverse right stack
    -- The start key itself is returned, and nothing on its near side.
    | .eq => node :: stack
    | .gt =>
      if isReverse then pushFrom startKey isReverse right (node :: stack)
      else pushFrom startKey isReverse left (node :: stack)

/-- The enumerator of the keys of a tree. -/
def start (dictionary : TreeSortedDictionary K V) (startKey : Option K) (isReverse : Bool) :
    TreeSortedDictionaryEnumerator K V where
  -- The nodes are pushed on the way down from the root.
  stack := pushFrom startKey isReverse dictionary.root []
  isReverse := isReverse

end TreeSortedDictionaryEnumerator

end CardGuru
