import CardGuru.Firebase.LLRBNode

/-! The balance of the search trees: every path has the same number of black nodes, no two red nodes follow
each other, and no right child is red. -/

namespace CardGuru

namespace LLRBNode

variable {K V : Type*} {key : K} {stored : V} {color : LLRBColor} {height : ℕ}
  {node left right : LLRBNode K V}

/-- A balanced tree, with the colour of its root and the number of black nodes on each path. -/
inductive Balanced : LLRBNode K V → LLRBColor → ℕ → Prop where
  | empty : Balanced .empty .black 0
  /-- Both children of a red node are black. -/
  | red {key : K} {stored : V} {left right : LLRBNode K V} {height : ℕ} (toLeft : Balanced left .black height)
      (toRight : Balanced right .black height) : Balanced (.value key stored .red left right) .red height
  /-- The right child of a black node is black. -/
  | black {key : K} {stored : V} {left right : LLRBNode K V} {color : LLRBColor} {height : ℕ}
      (toLeft : Balanced left color height) (toRight : Balanced right .black height) :
      Balanced (.value key stored .black left right) .black (height + 1)

/-- The colour of a balanced tree is that of its root. -/
theorem Balanced.isRed (balanced : Balanced node color height) : node.isRed = decide (color = .red) := by
  cases balanced <;> rfl

/-- A red root has black children. -/
theorem Balanced.left_isRed (balanced : Balanced node .red height) : node.left.isRed = false := by
  cases balanced with
  | red toLeft toRight => exact toLeft.isRed

/-- A balanced tree has no two red nodes in a row at its top. -/
theorem Balanced.noRow (balanced : Balanced node color height) (red : node.isRed = true) :
    node.left.isRed = false := by
  -- Only a red node says something, and its children are black.
  cases balanced with
  | empty => rfl
  | red toLeft toRight => exact toLeft.isRed
  | black toLeft toRight => cases red

/-- A black tree without black nodes is empty. -/
theorem Balanced.eq_empty (balanced : Balanced node .black 0) : node = .empty := by
  cases balanced
  rfl

/-- A red root becomes black. -/
theorem Balanced.flipped_red (balanced : Balanced node .red height) :
    Balanced node.flipped .black (height + 1) := by
  cases balanced with
  -- The children stay, and the node itself is counted now.
  | red toLeft toRight => exact .black toLeft toRight

/-- A red root whose left child may be red too, as it may be left by an insertion below. -/
inductive RedOverLeft : LLRBNode K V → ℕ → Prop where
  | mk {key : K} {stored : V} {left right : LLRBNode K V} {color : LLRBColor} {height : ℕ}
      (toLeft : Balanced left color height) (toRight : Balanced right .black height) :
      RedOverLeft (.value key stored .red left right) height

/-! ### Repairs -/

/-- Nothing is repaired when the right child is black and no two red nodes are in a row. -/
theorem fixUp_of_right_black (rightBlack : right.isRed = false)
    (noRow : left.isRed = true → left.left.isRed = false) :
    (value key stored color left right).fixUp = value key stored color left right := by
  -- None of the three repairs applies, whatever the left child is.
  cases red : left.isRed with
  | false => simp [fixUp, rightBlack, red]
  | true => simp [fixUp, rightBlack, red, noRow red]

/-- A red right child beside a black one moves up. -/
theorem fixUp_of_right_red {rightKey : K} {rightStored : V} {rightLeft rightRight : LLRBNode K V}
    (leftBlack : left.isRed = false) (rightBlack : rightRight.isRed = false) :
    (value key stored color left (value rightKey rightStored .red rightLeft rightRight)).fixUp =
      value rightKey rightStored color (value key stored .red left rightLeft) rightRight := by
  -- The first repair is the only one that applies.
  simp [fixUp, rotateLeft, leftBlack, rightBlack]

/-- Two red children become black. -/
theorem fixUp_of_both_red (leftRed : left.isRed = true) (rightRed : right.isRed = true)
    (noRow : left.left.isRed = false) :
    (value key stored color left right).fixUp =
      value key stored color.flip left.flipped right.flipped := by
  -- Only the colours change; the shape is kept.
  simp [fixUp, leftRed, rightRed, noRow, colorFlip]

/-- Two red nodes in a row are spread over both sides. -/
theorem fixUp_of_row {leftKey : K} {leftStored : V} {leftLeft leftRight : LLRBNode K V}
    (row : leftLeft.isRed = true) (rightBlack : right.isRed = false) :
    (value key stored color (value leftKey leftStored .red leftLeft leftRight) right).fixUp =
      value leftKey leftStored color.flip leftLeft.flipped (value key stored .black leftRight right) := by
  -- A rotation to the right makes both children red, and the colours are flipped.
  simp [fixUp, row, rightBlack, rotateRight, colorFlip, flipped, LLRBColor.flip]

/-- No repair changes the entries or their order. -/
theorem inorder_fixUp (node : LLRBNode K V) : node.fixUp.inorder = node.inorder := by
  have flips : ∀ node : LLRBNode K V, node.colorFlip.inorder = node.inorder := by
    intro node
    cases node with
    | empty => rfl
    | value key stored color left right =>
      cases left <;> cases right <;> rfl
  have rotatesRight : ∀ node : LLRBNode K V, node.left.isRed = true →
      node.rotateRight.inorder = node.inorder := by
    intro node red
    cases node with
    | empty => rfl
    | value key stored color left right =>
      cases left with
      | empty => cases red
      | value => simp [rotateRight, inorder]
  have rotatesLeft : ∀ node : LLRBNode K V, node.right.isRed = true →
      node.rotateLeft.inorder = node.inorder := by
    intro node red
    cases node with
    | empty => rfl
    | value key stored color left right =>
      cases right with
      | empty => cases red
      | value => simp [rotateLeft, inorder]
  -- The three repairs are made one after the other.
  have first : (if node.right.isRed && !node.left.isRed then node.rotateLeft else node).inorder =
      node.inorder := by
    split
    · rename_i red
      exact rotatesLeft node (by simp at red; exact red.1)
    · rfl
  rw [fixUp]
  generalize (if node.right.isRed && !node.left.isRed then node.rotateLeft else node) = n at first ⊢
  have second : (if n.left.isRed && n.left.left.isRed then n.rotateRight else n).inorder = n.inorder := by
    split
    · rename_i red
      exact rotatesRight n (by simp at red; exact red.1)
    · rfl
  generalize (if n.left.isRed && n.left.left.isRed then n.rotateRight else n) = m at second ⊢
  rw [← first, ← second]
  show (if m.left.isRed && m.right.isRed then m.colorFlip else m).inorder = m.inorder
  split
  · exact flips m
  · rfl

/-! ### Insertion -/

variable [LinearOrder K]

/-- Inserting keeps the number of black nodes, and makes at most two red nodes in a row below a red root. -/
theorem Balanced.insertKey_cases (balanced : Balanced node color height) (aKey : K) (aValue : V) :
    (color = .black → ∃ after, Balanced (node.insertKey aKey aValue) after height) ∧
      (color = .red → RedOverLeft (node.insertKey aKey aValue) height) := by
  -- Below a red root a row may arise; a black root repairs it at once.
  induction balanced with
  | empty => exact ⟨fun _ => ⟨_, .red .empty .empty⟩, fun other => (by cases other)⟩
  | @red key stored left right height toLeft toRight leftIh rightIh =>
    refine ⟨fun other => (by cases other), fun _ => ?_⟩
    rw [insertKey]
    split
    · -- A red left child is left as it is; the parent repairs it.
      obtain ⟨after, inserted⟩ := leftIh.1 rfl
      rw [fixUp_of_right_black toRight.isRed inserted.noRow]
      exact ⟨inserted, toRight⟩
    · split
      · rw [fixUp_of_right_black toRight.isRed toLeft.noRow]
        exact ⟨toLeft, toRight⟩
      · obtain ⟨after, inserted⟩ := rightIh.1 rfl
        -- To the right a red child may arise, which moves up.
        generalize right.insertKey aKey aValue = right at inserted
        cases after with
        | black =>
          rw [fixUp_of_right_black inserted.isRed toLeft.noRow]
          exact ⟨toLeft, inserted⟩
        | red =>
          cases inserted with
          | red below beside =>
            rw [fixUp_of_right_red toLeft.isRed beside.isRed]
            exact ⟨.red toLeft below, beside⟩
  | @black key stored left right color height toLeft toRight leftIh rightIh =>
    refine ⟨fun _ => ?_, fun other => (by cases other)⟩
    rw [insertKey]
    split
    · cases color with
      | black =>
        obtain ⟨after, inserted⟩ := leftIh.1 rfl
        rw [fixUp_of_right_black toRight.isRed inserted.noRow]
        exact ⟨_, .black inserted toRight⟩
      | red =>
        -- A red left child may come back with a red child of its own.
        have inserted := leftIh.2 rfl
        generalize left.insertKey aKey aValue = left at inserted
        obtain ⟨below, beside⟩ := inserted
        rename_i leftColor
        cases leftColor with
        | black =>
          rw [fixUp_of_right_black toRight.isRed]
          · exact ⟨_, .black (.red below beside) toRight⟩
          · exact fun _ => below.isRed
        | red =>
          rw [fixUp_of_row below.isRed toRight.isRed]
          exact ⟨_, .red below.flipped_red (.black beside toRight)⟩
    · split
      · rw [fixUp_of_right_black toRight.isRed toLeft.noRow]
        exact ⟨_, .black toLeft toRight⟩
      · obtain ⟨after, inserted⟩ := rightIh.1 rfl
        generalize right.insertKey aKey aValue = right at inserted
        cases after with
        | black =>
          rw [fixUp_of_right_black inserted.isRed toLeft.noRow]
          exact ⟨_, .black toLeft inserted⟩
        | red =>
          cases color with
          | black =>
            cases inserted with
            | red below beside =>
              rw [fixUp_of_right_red toLeft.isRed beside.isRed]
              exact ⟨_, .black (.red toLeft below) beside⟩
          | red =>
            rw [fixUp_of_both_red toLeft.isRed inserted.isRed toLeft.left_isRed]
            exact ⟨_, .red toLeft.flipped_red inserted.flipped_red⟩

end LLRBNode

end CardGuru
