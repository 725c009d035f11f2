import CardGuru.Lib.Entries

/-! The nodes of the search trees that larger dictionaries are kept in: their rotations, and how
entries are inserted and removed. -/

namespace CardGuru

/-- The colour of a node. -/
inductive LLRBColor where
  | red
  | black
deriving DecidableEq

/-- The other colour. -/
def LLRBColor.flip : LLRBColor → LLRBColor
  | red => black
  | black => red

/-- A node with an entry, or the empty node. -/
inductive LLRBNode (K V : Type*) where
  | empty
  | value (key : K) (value : V) (color : LLRBColor) (left right : LLRBNode K V)

namespace LLRBNode

variable {K V : Type*}

/-- Whether a node is red; the empty node is not. -/
def isRed : LLRBNode K V → Bool
  | empty => false
  | value _ _ color _ _ => color = .red

/-- Whether there is no entry. -/
def isEmpty : LLRBNode K V → Bool
  | empty => true
  | value .. => false

/-- The left child; the empty node has none, which answers every question as the empty node does. -/
def left : LLRBNode K V → LLRBNode K V
  | empty => empty
  | value _ _ _ left _ => left

/-- The right child. -/
def right : LLRBNode K V → LLRBNode K V
  | empty => empty
  | value _ _ _ _ right => right

/-- A copy with another colour; the empty node is its own copy. -/
def withColor (color : LLRBColor) : LLRBNode K V → LLRBNode K V
  | empty => empty
  | value key stored _ left right => value key stored color left right

/-- A copy with the other colour. -/
def flipped : LLRBNode K V → LLRBNode K V
  | empty => empty
  | value key stored color left right => value key stored color.flip left right

/-- The number of entries. -/
def count : LLRBNode K V → ℕ
  | empty => 0
  | value _ _ _ left right => left.count + 1 + right.count

/-- The entries in the order of a traversal from the left. -/
def inorder : LLRBNode K V → List (K × V)
  | empty => []
  | value key stored _ left right => left.inorder ++ (key, stored) :: right.inorder

/-- The entries in the order of a traversal from the right. -/
def reverseOrder : LLRBNode K V → List (K × V)
  | empty => []
  | value key stored _ left right => right.reverseOrder ++ (key, stored) :: left.reverseOrder

/-- The entry that is farthest to the left. -/
def min : LLRBNode K V → Option (K × V)
  | empty => none
  | value key stored _ left _ => if left.isEmpty then some (key, stored) else left.min

/-- The key that is farthest to the right. -/
def maxKey : LLRBNode K V → Option K
  | empty => none
  | value key _ _ _ right => if right.isEmpty then some key else right.maxKey

/-- The right child moves up. -/
def rotateLeft : LLRBNode K V → LLRBNode K V
  | empty => empty
  -- A copy of the empty node is the empty node; this is asked of a red right child only.
  | value _ _ _ _ empty => empty
  | value key stored color left (value rightKey rightStored _ rightLeft rightRight) =>
    value rightKey rightStored color (value key stored .red left rightLeft) rightRight

/-- The left child moves up. -/
def rotateRight : LLRBNode K V → LLRBNode K V
  | empty => empty
  -- A copy of an empty node is empty, whatever it is given.
  | value _ _ _ empty _ => empty
  | value key stored color (value leftKey leftStored _ leftLeft leftRight) right =>
    value leftKey leftStored color leftLeft (value key stored .red leftRight right)

/-- A node and its children change their colours. -/
def colorFlip : LLRBNode K V → LLRBNode K V
  | empty => empty
  | value key stored color left right => value key stored color.flip left.flipped right.flipped

/-- A right child that is red, or two red nodes in a row, are repaired. -/
def fixUp (node : LLRBNode K V) : LLRBNode K V :=
  -- Three repairs, each on what the one before returns.
  let n := if node.right.isRed && !node.left.isRed then node.rotateLeft else node
  let n := if n.left.isRed && n.left.left.isRed then n.rotateRight else n
  if n.left.isRed && n.right.isRed then n.colorFlip else n

/-- A copy with another right child. -/
def withRight : LLRBNode K V → LLRBNode K V → LLRBNode K V
  | empty, _ => empty
  | value key stored color left _, child => value key stored color left child

/-- A copy with another left child. -/
def withLeft : LLRBNode K V → LLRBNode K V → LLRBNode K V
  | empty, _ => empty
  | value key stored color _ right, child => value key stored color child right

/-- Make the left child or one of its children red. -/
def moveRedLeft (node : LLRBNode K V) : LLRBNode K V :=
  let n := node.colorFlip
  if n.right.left.isRed then (n.withRight n.right.rotateRight).rotateLeft.colorFlip else n

/-- Make the right child or one of its children red. -/
def moveRedRight (node : LLRBNode K V) : LLRBNode K V :=
  let n := node.colorFlip
  if n.left.left.isRed then n.rotateRight.colorFlip else n

section Fields

variable (key : K) (stored : V) (color : LLRBColor) (leftChild rightChild : LLRBNode K V)

@[simp] theorem left_empty : (empty : LLRBNode K V).left = empty := rfl
@[simp] theorem right_empty : (empty : LLRBNode K V).right = empty := rfl
@[simp] theorem isRed_empty : (empty : LLRBNode K V).isRed = false := rfl
@[simp] theorem isEmpty_empty : (empty : LLRBNode K V).isEmpty = true := rfl
@[simp] theorem left_value : (value key stored color leftChild rightChild).left = leftChild := rfl
@[simp] theorem right_value : (value key stored color leftChild rightChild).right = rightChild := rfl
@[simp] theorem isEmpty_value : (value key stored color leftChild rightChild).isEmpty = false := rfl
@[simp] theorem flipped_value : (value key stored color leftChild rightChild).flipped =
    value key stored color.flip leftChild rightChild := rfl
@[simp] theorem isRed_value : (value key stored color leftChild rightChild).isRed = decide (color = .red) := rfl

end Fields

/-! ### The number of entries -/

@[simp] theorem count_flipped (node : LLRBNode K V) : node.flipped.count = node.count := by
  cases node <;> rfl

@[simp] theorem count_colorFlip (node : LLRBNode K V) : node.colorFlip.count = node.count := by
  -- Only colours change.
  cases node with
  | empty => rfl
  | value key stored color left right => simp [colorFlip, count]

theorem count_rotateLeft_le (node : LLRBNode K V) : node.rotateLeft.count ≤ node.count := by
  -- An entry can only get lost where the right child is missing.
  cases node with
  | empty => simp [rotateLeft]
  | value key stored color left right =>
    cases right <;> simp [rotateLeft, count]
    omega

theorem count_rotateRight_le (node : LLRBNode K V) : node.rotateRight.count ≤ node.count := by
  cases node with
  | empty => simp [rotateRight]
  | value key stored color left right =>
    -- With a left child the sum is only ordered differently.
    cases left <;> simp [rotateRight, count]
    omega

theorem count_withRight_le {node child : LLRBNode K V} (smaller : child.count ≤ node.right.count) :
    (node.withRight child).count ≤ node.count := by
  cases node with
  | empty => simp [withRight]
  | value key stored color left right =>
    -- The other child and the node itself count as before.
    simp only [LLRBNode.right] at smaller
    simp only [withRight, count]
    omega

theorem count_moveRedLeft_le (node : LLRBNode K V) : node.moveRedLeft.count ≤ node.count := by
  rw [moveRedLeft]
  split
  · -- Each of the rotations keeps the entries.
    rw [count_colorFlip]
    refine (count_rotateLeft_le _).trans ((count_withRight_le (count_rotateRight_le _)).trans ?_)
    rw [count_colorFlip]
  · rw [count_colorFlip]

theorem count_moveRedRight_le (node : LLRBNode K V) : node.moveRedRight.count ≤ node.count := by
  rw [moveRedRight]
  -- The rotation is made only with a red node on the far left.
  split
  · rw [count_colorFlip]
    exact (count_rotateRight_le _).trans (count_colorFlip node).le
  · rw [count_colorFlip]

/-- A child has fewer entries than any node that is at least as large as its parent. -/
theorem count_left_lt {node : LLRBNode K V} {bound : ℕ} (smaller : node.count ≤ bound) (positive : 0 < bound) :
    node.left.count < bound := by
  -- The node counts itself, so its child has one entry less.
  cases node with
  | empty => simpa [left, count] using positive
  | value key stored color left right =>
    simp only [count] at smaller
    simp only [LLRBNode.left]
    omega

theorem count_right_lt {node : LLRBNode K V} {bound : ℕ} (smaller : node.count ≤ bound) (positive : 0 < bound) :
    node.right.count < bound := by
  -- As on the left.
  cases node with
  | empty => simpa [right, count] using positive
  | value key stored color left right =>
    simp only [count] at smaller
    simp only [LLRBNode.right]
    omega

/-! ### Inserting and removing -/

/-- The node from whose left child an entry can be removed. -/
def movedLeft (node : LLRBNode K V) : LLRBNode K V :=
  if !node.left.isEmpty && !node.left.isRed && !node.left.left.isRed then node.moveRedLeft else node

/-- The node from whose right child an entry can be removed. -/
def movedRight (node : LLRBNode K V) : LLRBNode K V :=
  let n := if node.left.isRed then node.rotateRight else node
  if !n.right.isEmpty && !n.right.isRed && !n.right.left.isRed then n.moveRedRight else n

theorem count_movedLeft_le (node : LLRBNode K V) : node.movedLeft.count ≤ node.count := by
  rw [movedLeft]
  -- The node is moved or left as it is.
  split
  · exact count_moveRedLeft_le node
  · exact le_refl _

theorem count_movedRight_le (node : LLRBNode K V) : node.movedRight.count ≤ node.count := by
  -- First the left child is taken out of the way.
  have rotated : (if node.left.isRed then node.rotateRight else node).count ≤ node.count := by
    split
    · exact count_rotateRight_le node
    · exact le_refl _
  rw [movedRight]
  generalize (if node.left.isRed then node.rotateRight else node) = n at rotated ⊢
  refine le_trans ?_ rotated
  show (if !n.right.isEmpty && !n.right.isRed && !n.right.left.isRed then n.moveRedRight else n).count ≤ _
  split
  · exact count_moveRedRight_le n
  · exact le_refl _

/-- Remove the entry that is farthest to the left. -/
def removeMin (node : LLRBNode K V) : LLRBNode K V :=
  if node.left.isEmpty then empty
  else (node.movedLeft.withLeft node.movedLeft.left.removeMin).fixUp
termination_by node.count
decreasing_by
  -- The node has an entry, since its left child is not empty.
  refine count_left_lt (count_movedLeft_le node) ?_
  cases node with
  | empty => simp [left, isEmpty] at *
  | value key stored color left right =>
    simp only [count]
    omega

/-- The key of a node. -/
def key? : LLRBNode K V → Option K
  | empty => none
  | value key _ _ _ _ => some key

/-- A copy with another entry. -/
def withEntry : LLRBNode K V → Option (K × V) → LLRBNode K V
  | value _ _ color left right, some (key, stored) => value key stored color left right
  | node, _ => node

theorem count_fixUp_le (node : LLRBNode K V) : node.fixUp.count ≤ node.count := by
  rw [fixUp]
  -- Three repairs, each of which may or may not be made.
  have first : (if node.right.isRed && !node.left.isRed then node.rotateLeft else node).count ≤ node.count := by
    split
    · exact count_rotateLeft_le node
    · exact le_refl _
  generalize (if node.right.isRed && !node.left.isRed then node.rotateLeft else node) = n at first ⊢
  have second : (if n.left.isRed && n.left.left.isRed then n.rotateRight else n).count ≤ n.count := by
    split
    · exact count_rotateRight_le n
    · exact le_refl _
  generalize (if n.left.isRed && n.left.left.isRed then n.rotateRight else n) = m at second ⊢
  refine le_trans ?_ (second.trans first)
  show (if m.left.isRed && m.right.isRed then m.colorFlip else m).count ≤ m.count
  split
  · exact (count_colorFlip m).le
  · exact le_refl _

theorem count_withLeft_le {node child : LLRBNode K V} (smaller : child.count ≤ node.left.count) :
    (node.withLeft child).count ≤ node.count := by
  cases node with
  | empty => simp [withLeft]
  | value key stored color left right =>
    -- As on the right.
    simp only [LLRBNode.left] at smaller
    simp only [withLeft, count]
    omega

theorem count_removeMin_le (node : LLRBNode K V) : node.removeMin.count ≤ node.count := by
  -- By induction on the number of entries, as the function recurs.
  induction node using removeMin.induct with
  | case1 node nothing =>
    rw [removeMin, if_pos nothing]
    exact Nat.zero_le _
  | case2 node something ih =>
    rw [removeMin, if_neg something]
    exact (count_fixUp_le _).trans ((count_withLeft_le ih).trans (count_movedLeft_le node))

variable [LinearOrder K]

/-- Store a value under a key. -/
def insertKey (key : K) (stored : V) : LLRBNode K V → LLRBNode K V
  -- A new node is red.
  | empty => value key stored .red empty empty
  | value other old color left right =>
    fixUp <|
      if key < other then value other old color (left.insertKey key stored) right
      else if key = other then value other stored color left right
      else value other old color left (right.insertKey key stored)

/-- Remove the entry with a key. -/
def remove (aKey : K) : LLRBNode K V → LLRBNode K V
  | empty => empty
  | value key stored color left right =>
    let node := value key stored color left right
    if aKey < key then (node.movedLeft.withLeft (node.movedLeft.left.remove aKey)).fixUp
    else
      let n := node.movedRight
      if n.key? = some aKey then
        if n.right.isEmpty then empty
        -- The next entry takes the place of the removed one; the key is searched below it once more.
        else ((n.withEntry n.right.min).withRight (n.right.removeMin.remove aKey)).fixUp
      else (n.withRight (n.right.remove aKey)).fixUp
termination_by node => node.count
decreasing_by
  all_goals
    have positive : 0 < (value key stored color left right).count := by
      simp only [count]
      omega
  · exact count_left_lt (count_movedLeft_le _) positive
  · exact (count_removeMin_le _).trans_lt (count_right_lt (count_movedRight_le _) positive)
  · exact count_right_lt (count_movedRight_le _) positive

/-- What is stored under a key. -/
def get (key : K) : LLRBNode K V → Option V
  | empty => none
  | value other stored _ left right =>
    -- The comparator is asked at each node on the way.
    if key = other then some stored else if key < other then left.get key else right.get key

end LLRBNode

end CardGuru
