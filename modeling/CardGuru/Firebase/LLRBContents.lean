import CardGuru.Firebase.LLRBRemoval
import Mathlib.Algebra.Group.Nat.Defs

/-! The contents of a search tree as an ordered list of entries, and the checks a tree makes of itself. -/

namespace CardGuru

namespace LLRBNode

variable {K V : Type*} {color : LLRBColor} {height : ℕ} {node : LLRBNode K V}

/-! ### Traversals -/

/-- The number of entries is the length of a traversal. -/
theorem count_eq_length (node : LLRBNode K V) : node.count = node.inorder.length := by
  induction node with
  | empty => rfl
  | value key stored color left right leftIh rightIh =>
    -- The entry of the node stands between those of the children.
    simp only [count, inorder, leftIh, rightIh, List.length_append, List.length_cons]
    omega

/-- The traversals from both sides visit the same entries in opposite orders. -/
theorem reverseOrder_eq_reverse (node : LLRBNode K V) : node.reverseOrder = node.inorder.reverse := by
  induction node with
  | empty => rfl
  -- The two sides of the node change places.
  | value key stored color left right leftIh rightIh => simp [reverseOrder, inorder, leftIh, rightIh]

/-- The key farthest to the right is the last one. -/
theorem maxKey_eq_getLast? (node : LLRBNode K V) : node.maxKey = node.inorder.getLast?.map Prod.fst := by
  induction node with
  | empty => rfl
  | value key stored color left right leftIh rightIh =>
    rw [inorder, List.getLast?_append_of_ne_nil _ (List.cons_ne_nil _ _), maxKey]
    cases right with
    | empty => rfl
    | value next other nextColor below beside =>
      -- The last key of the right child is the last one at all.
      have something : (value next other nextColor below beside).inorder ≠ [] := by simp [inorder]
      rw [isEmpty_value, if_neg Bool.false_ne_true, rightIh, ← List.singleton_append,
        List.getLast?_append_of_ne_nil _ something]

/-- A copy with another colour has the same entries. -/
@[simp] theorem inorder_withColor (color : LLRBColor) (node : LLRBNode K V) :
    (node.withColor color).inorder = node.inorder := by
  -- The colour is not part of an entry.
  cases node <;> rfl

/-! ### Reading and inserting -/

section Reading

variable [LinearOrder K]

/-- In an ordered tree the search for a key finds what is stored under it. -/
theorem get_eq_lookup (key : K) (sorted : Entries.Sorted node.inorder) : node.get key = node.inorder.lookup key := by
  induction node with
  | empty => rfl
  | value other stored color left right leftIh rightIh =>
    obtain ⟨leftSorted, restSorted, between⟩ := List.pairwise_append.mp sorted
    obtain ⟨above, rightSorted⟩ := List.pairwise_cons.mp restSorted
    rw [get, inorder]
    split
    · -- All keys on the left are smaller than the one of the node.
      rename_i same
      subst same
      rw [Entries.lookup_append_right fun entry member => between entry member _ List.mem_cons_self]
      simp
    · rename_i different
      split
      · rename_i below
        rw [leftIh leftSorted, Entries.lookup_append_left]
        intro entry member
        rcases List.mem_cons.mp member with rfl | later
        · exact below
        · exact below.trans (above entry later)
      · rename_i notBelow
        have greater : other < key := lt_of_le_of_ne (not_lt.mp notBelow) (Ne.symm different)
        rw [rightIh rightSorted, Entries.lookup_append_right, List.lookup_cons, beq_eq_false_iff_ne.mpr different]
        exact fun entry member => (between entry member _ List.mem_cons_self).trans greater

/-- Inserting into an ordered tree stores the value under the key. -/
theorem inorder_insertKey (key : K) (stored : V) (sorted : Entries.Sorted node.inorder) :
    (node.insertKey key stored).inorder = Entries.put key stored node.inorder := by
  induction node with
  | empty => rfl
  | value other old color left right leftIh rightIh =>
    obtain ⟨leftSorted, restSorted, between⟩ := List.pairwise_append.mp sorted
    obtain ⟨above, rightSorted⟩ := List.pairwise_cons.mp restSorted
    rw [insertKey, inorder_fixUp]
    split
    · rename_i below
      -- Whatever is not on the left is larger than the key.
      have larger : ∀ entry ∈ (other, old) :: right.inorder, key < entry.1 := by
        intro entry member
        rcases List.mem_cons.mp member with rfl | later
        · exact below
        · exact below.trans (above entry later)
      rw [inorder, inorder, leftIh leftSorted, Entries.put_append_left stored larger (List.cons_ne_nil _ _)]
    · rename_i notBelow
      have notLarger : other ≤ key := not_lt.mp notBelow
      have smaller : ∀ entry ∈ left.inorder, entry.1 < key := fun entry member =>
        (between entry member _ List.mem_cons_self).trans_le notLarger
      split
      · rename_i same
        subst same
        rw [inorder, inorder, Entries.put_append_right stored smaller]
        simp [Entries.put]
      · rename_i different
        rw [inorder, inorder, rightIh rightSorted, Entries.put_append_right stored smaller, Entries.put,
          if_neg notBelow, if_neg (Ne.symm different)]

end Reading

/-! ### The root of a tree -/

/-- The root of a balanced tree can be made black. -/
theorem Balanced.withColor_black (balanced : Balanced node color height) :
    ∃ after, Balanced (node.withColor .black) .black after := by
  -- The path to each leaf gets one black node more, or none.
  cases balanced with
  | empty => exact ⟨_, .empty⟩
  | red toLeft toRight => exact ⟨_, .black toLeft toRight⟩
  | black toLeft toRight => exact ⟨_, .black toLeft toRight⟩

section Root

variable [LinearOrder K]

/-- Inserting below a black root. -/
theorem Balanced.insertKey_root (balanced : Balanced node .black height) (key : K) (stored : V) :
    ∃ after, Balanced ((node.insertKey key stored).withColor .black) .black after := by
  -- Below a black root no row of red nodes is left.
  obtain ⟨after, inserted⟩ := (balanced.insertKey_cases key stored).1 rfl
  exact inserted.withColor_black

/-- Removing below a black root. -/
theorem Balanced.remove_root (balanced : Balanced node .black height) (sorted : Entries.Sorted node.inorder)
    (key : K) :
    (∃ after, Balanced ((node.remove key).withColor .black) .black after) ∧
      (node.remove key).inorder = Entries.drop key node.inorder := by
  cases balanced with
  | empty =>
    rw [remove]
    exact ⟨⟨_, .empty⟩, rfl⟩
  | @black other stored left right leftColor height toLeft toRight =>
    cases leftColor with
    | red =>
      have removable : Removable key (value other stored .black left right) .black (height + 1) :=
        .loose (.black toLeft toRight)
      obtain ⟨kept, dropped⟩ := removable.remove sorted
      exact ⟨kept.elim Balanced.withColor_black Balanced.withColor_black, dropped⟩
    | black =>
      -- As if the root were red: its colour is changed twice.
      have removable : Removable key (value other stored .red left right) .red height :=
        .loose (.red toLeft toRight)
      obtain ⟨kept, dropped⟩ := removable.remove sorted
      have flips : value other stored .black left right = (value other stored .red left right).flipped := rfl
      have recolored : ∀ node : LLRBNode K V, node.flipped.withColor .black = node.withColor .black := by
        intro node
        cases node <;> rfl
      rw [flips, remove_flipped, inorder_flipped, inorder_flipped, recolored]
      exact ⟨kept.elim Balanced.withColor_black Balanced.withColor_black, dropped⟩

end Root

/-! ### The checks -/

/-- What a tree complains about when it is checked. -/
inductive CheckFault where
  /-- "Red node has a red child" -/
  | redChild
  /-- "Right child is red" -/
  | rightRed
  /-- The children have different black depths. -/
  | blackDepth (left right : ℕ)
deriving DecidableEq

/-- Check the colours, and count the black nodes on each path. -/
def check : LLRBNode K V → Except CheckFault ℕ
  | empty => .ok 0
  | value key stored color left right =>
    -- The same two rules that the source raises on.
    if (value key stored color left right).isRed && left.isRed then .error .redChild
    else if right.isRed then .error .rightRed
    else do
      let blackDepth ← left.check
      let rightDepth ← right.check
      if blackDepth ≠ rightDepth then .error (.blackDepth blackDepth rightDepth)
      -- Only black nodes count.
      else .ok (blackDepth + if (value key stored color left right).isRed then 0 else 1)

/-- Whether the tree has enough entries for its depth. -/
def checkMaxDepth (node : LLRBNode K V) : Except CheckFault Bool := do
  let blackDepth ← node.check
  return 2 ^ blackDepth ≤ node.count + 1

/-- Balanced trees pass the check. -/
theorem Balanced.check (balanced : Balanced node color height) : node.check = .ok height := by
  -- Balanced children are never red where the check looks.
  induction balanced with
  | empty => rfl
  | red toLeft toRight leftIh rightIh =>
    simp [LLRBNode.check, toLeft.isRed, toRight.isRed, leftIh, rightIh, bind, Except.bind]
  | black toLeft toRight leftIh rightIh =>
    simp [LLRBNode.check, toRight.isRed, leftIh, rightIh, bind, Except.bind]

/-- A tree of some black depth has at least the entries of a full tree. -/
theorem Balanced.count_ge (balanced : Balanced node color height) : 2 ^ height ≤ node.count + 1 := by
  induction balanced with
  | empty => simp [count]
  | red toLeft toRight leftIh rightIh =>
    simp only [count]
    omega
  | @black key stored left right color height toLeft toRight leftIh rightIh =>
    -- Each of the children is at least a full tree.
    have doubled : 2 ^ (height + 1) = 2 ^ height + 2 ^ height := by
      rw [Nat.pow_succ]
      omega
    simp only [count]
    omega

end LLRBNode

end CardGuru
