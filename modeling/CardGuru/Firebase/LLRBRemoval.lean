import CardGuru.Firebase.LLRBBalance

/-! Removing an entry from a balanced tree leaves a balanced tree with all other entries. -/

namespace CardGuru

namespace LLRBNode

variable {K V : Type*} {key aKey : K} {stored : V} {color : LLRBColor} {height : ℕ}
  {node left right : LLRBNode K V}

/-! ### The colour of the root -/

@[simp] theorem flip_red : LLRBColor.red.flip = .black := rfl
@[simp] theorem flip_black : LLRBColor.black.flip = .red := rfl

@[simp] theorem flip_flip (color : LLRBColor) : color.flip.flip = color := by
  cases color <;> rfl

@[simp] theorem flipped_flipped (node : LLRBNode K V) : node.flipped.flipped = node := by
  cases node <;> simp [flipped]

@[simp] theorem left_flipped (node : LLRBNode K V) : node.flipped.left = node.left := by
  cases node <;> rfl

@[simp] theorem right_flipped (node : LLRBNode K V) : node.flipped.right = node.right := by
  cases node <;> rfl

@[simp] theorem inorder_flipped (node : LLRBNode K V) : node.flipped.inorder = node.inorder := by
  cases node <;> rfl

@[simp] theorem key?_flipped (node : LLRBNode K V) : node.flipped.key? = node.key? := by
  cases node <;> rfl

theorem rotateLeft_flipped (node : LLRBNode K V) : node.flipped.rotateLeft = node.rotateLeft.flipped := by
  -- A rotation does not look at the colours of the children.
  cases node with
  | empty => rfl
  | value key stored color left right => cases right <;> rfl

theorem rotateRight_flipped (node : LLRBNode K V) : node.flipped.rotateRight = node.rotateRight.flipped := by
  -- As to the left.
  cases node with
  | empty => rfl
  | value key stored color left right => cases left <;> rfl

theorem colorFlip_flipped (node : LLRBNode K V) : node.flipped.colorFlip = node.colorFlip.flipped := by
  cases node <;> rfl

theorem withLeft_flipped (node child : LLRBNode K V) :
    node.flipped.withLeft child = (node.withLeft child).flipped := by
  cases node <;> rfl

theorem withRight_flipped (node child : LLRBNode K V) :
    node.flipped.withRight child = (node.withRight child).flipped := by
  cases node <;> rfl

theorem withEntry_flipped (node : LLRBNode K V) (entry : Option (K × V)) :
    node.flipped.withEntry entry = (node.withEntry entry).flipped := by
  cases node <;> cases entry <;> rfl

theorem fixUp_flipped (node : LLRBNode K V) : node.flipped.fixUp = node.fixUp.flipped := by
  -- No repair asks for the colour of the root.
  simp only [fixUp, left_flipped, right_flipped, rotateLeft_flipped, ← apply_ite flipped, rotateRight_flipped,
    colorFlip_flipped]

theorem movedLeft_flipped (node : LLRBNode K V) : node.flipped.movedLeft = node.movedLeft.flipped := by
  simp only [movedLeft, moveRedLeft, left_flipped, right_flipped, colorFlip_flipped, withRight_flipped,
    rotateLeft_flipped, ← apply_ite flipped]

theorem movedRight_flipped (node : LLRBNode K V) : node.flipped.movedRight = node.movedRight.flipped := by
  simp only [movedRight, moveRedRight, left_flipped, right_flipped, colorFlip_flipped, rotateRight_flipped,
    ← apply_ite flipped]

/-- Removing from a root of the other colour leaves a root of the other colour. -/
theorem remove_flipped [LinearOrder K] (aKey : K) (node : LLRBNode K V) :
    node.flipped.remove aKey = (node.remove aKey).flipped := by
  cases node with
  | empty => simp [remove, flipped]
  | value key stored color left right =>
    have flips : value key stored color.flip left right = (value key stored color left right).flipped := rfl
    rw [flipped, remove, remove]
    simp only [flips, movedLeft_flipped, movedRight_flipped, left_flipped, right_flipped, withLeft_flipped,
      withRight_flipped, withEntry_flipped, key?_flipped, fixUp_flipped]
    -- The root that is left without an entry has no colour.
    split
    · rfl
    · split
      · split <;> rfl
      · rfl

/-! ### Making a child red -/

/-- Without a red node near the right child, the children change their colours. -/
theorem moveRedLeft_of_black (noRed : right.left.isRed = false) :
    (value key stored color left right).moveRedLeft = value key stored color.flip left.flipped right.flipped := by
  simp [moveRedLeft, colorFlip, noRed]

/-- A red node below the right child moves to the top. -/
theorem moveRedLeft_of_red {rightKey nextKey : K} {rightStored nextStored : V} {rightColor : LLRBColor}
    {nextLeft nextRight rightRight : LLRBNode K V} :
    (value key stored color left (value rightKey rightStored rightColor
        (value nextKey nextStored .red nextLeft nextRight) rightRight)).moveRedLeft =
      value nextKey nextStored color (value key stored .black left.flipped nextLeft)
        (value rightKey rightStored .black nextRight rightRight) := by
  -- Flip, rotate the right child, rotate the node, flip again.
  simp [moveRedLeft, colorFlip, flipped, withRight, rotateRight, rotateLeft]

/-- Without a red node below the left child, the children change their colours. -/
theorem moveRedRight_of_black (noRed : left.left.isRed = false) :
    (value key stored color left right).moveRedRight =
      value key stored color.flip left.flipped right.flipped := by
  -- Only the first flip is made.
  simp [moveRedRight, colorFlip, noRed]

/-- With a red node below it, the left child moves to the top. -/
theorem moveRedRight_of_red {leftKey : K} {leftStored : V} {leftColor : LLRBColor}
    {leftLeft leftRight : LLRBNode K V} (red : leftLeft.isRed = true) :
    (value key stored color (value leftKey leftStored leftColor leftLeft leftRight) right).moveRedRight =
      value leftKey leftStored color leftLeft.flipped (value key stored .black leftRight right.flipped) := by
  -- Flip, rotate the node, flip again.
  simp [moveRedRight, colorFlip, flipped, red, rotateRight]

/-! ### The left side -/

/-- A tree from which an entry can be removed: its root or the left child of the root is red. -/
inductive Loose : LLRBNode K V → LLRBColor → ℕ → Prop where
  | red {key : K} {stored : V} {left right : LLRBNode K V} {height : ℕ} (toLeft : Balanced left .black height)
      (toRight : Balanced right .black height) : Loose (.value key stored .red left right) .red height
  | black {key : K} {stored : V} {left right : LLRBNode K V} {height : ℕ} (toLeft : Balanced left .red height)
      (toRight : Balanced right .black height) : Loose (.value key stored .black left right) .black (height + 1)

/-- What removing an entry makes of a tree: a red root may have become black. -/
def Kept (node : LLRBNode K V) (color : LLRBColor) (height : ℕ) : Prop :=
  Balanced node color height ∨ Balanced node .black height

/-- A red tree is loose. -/
theorem Balanced.loose (balanced : Balanced node .red height) : Loose node .red height := by
  cases balanced with
  | red toLeft toRight => exact .red toLeft toRight

/-- A loose tree is balanced. -/
theorem Loose.balanced (loose : Loose node color height) : Balanced node color height := by
  -- A loose tree has an entry, and is balanced besides.
  cases loose with
  | red toLeft toRight => exact .red toLeft toRight
  | black toLeft toRight => exact .black toLeft toRight

/-- A node whose left child can be changed, together with the entries that are not in this child. -/
structure PreparedLeft (moved : LLRBNode K V) (rest : List (K × V)) (color : LLRBColor) (height : ℕ)
    (childColor : LLRBColor) (childHeight : ℕ) : Prop where
  loose : Loose moved.left childColor childHeight
  inorder : ∀ child, (moved.withLeft child).fixUp.inorder = child.inorder ++ rest
  exact : ∀ {child : LLRBNode K V}, Balanced child childColor childHeight →
    Balanced (moved.withLeft child).fixUp color height
  kept : ∀ {child : LLRBNode K V}, Kept child childColor childHeight →
    Kept (moved.withLeft child).fixUp color height

/-- A red node with a loose black child on the left. -/
private theorem preparedLeft_red (toLeft : Loose left .black height) (toRight : Balanced right .black height) :
    PreparedLeft (value key stored .red left right) ((key, stored) :: right.inorder) .red height .black height := by
  -- Nothing has to be repaired.
  have exact : ∀ {child : LLRBNode K V}, Balanced child .black height →
      Balanced ((value key stored .red left right).withLeft child).fixUp .red height := by
    intro child balanced
    rw [withLeft, fixUp_of_right_black toRight.isRed balanced.noRow]
    exact .red balanced toRight
  exact ⟨toLeft, fun child => inorder_fixUp _, exact, fun kept => .inl (exact (kept.elim id id))⟩

/-- A black node with a red child on the left. -/
private theorem preparedLeft_black (toLeft : Balanced left .red height) (toRight : Balanced right .black height) :
    PreparedLeft (value key stored .black left right) ((key, stored) :: right.inorder) .black (height + 1) .red
      height := by
  -- The right child stays black, so any balanced child fits on the left.
  have black : ∀ {child : LLRBNode K V} {color : LLRBColor}, Balanced child color height →
      Balanced ((value key stored .black left right).withLeft child).fixUp .black (height + 1) := by
    intro child color balanced
    rw [withLeft, fixUp_of_right_black toRight.isRed balanced.noRow]
    exact .black balanced toRight
  exact ⟨toLeft.loose, fun child => inorder_fixUp _, fun balanced => black balanced,
    fun kept => .inl (kept.elim (fun balanced => black balanced) fun balanced => black balanced)⟩

/-- A black node with two red children, in the place of a red one. -/
private theorem preparedLeft_flipped (toLeft : Balanced left .red height) (toRight : Balanced right .red height) :
    PreparedLeft (value key stored .black left right) ((key, stored) :: right.inorder) .red (height + 1) .red
      height := by
  refine ⟨toLeft.loose, fun child => inorder_fixUp _, fun balanced => ?_, fun kept => ?_⟩
  · -- The colours are changed back.
    rw [withLeft, fixUp_of_both_red balanced.isRed toRight.isRed balanced.left_isRed]
    exact .red balanced.flipped_red toRight.flipped_red
  · rcases kept with balanced | balanced
    · rw [withLeft, fixUp_of_both_red balanced.isRed toRight.isRed balanced.left_isRed]
      exact .inl (.red balanced.flipped_red toRight.flipped_red)
    · -- Only the right child is red now, and moves up.
      cases toRight with
      | red below beside =>
        rw [withLeft, fixUp_of_right_red balanced.isRed beside.isRed]
        exact .inr (.black (.red balanced below) beside)

/-- A loose tree with something on the left can be prepared. -/
theorem Loose.movedLeft (loose : Loose (value key stored color left right) color height)
    (something : left.isEmpty = false) :
    ∃ rest childColor childHeight, rest <:+ (key, stored) :: right.inorder ∧
      left.inorder ++ (key, stored) :: right.inorder =
        (value key stored color left right).movedLeft.left.inorder ++ rest ∧
      PreparedLeft (value key stored color left right).movedLeft rest color height childColor childHeight := by
  cases loose with
  | black toLeft toRight =>
    have same : (value key stored .black left right).movedLeft = value key stored .black left right := by
      simp [LLRBNode.movedLeft, toLeft.isRed]
    rw [same]
    exact ⟨_, _, _, List.suffix_rfl, rfl, preparedLeft_black toLeft toRight⟩
  | red toLeft toRight =>
    cases toLeft with
    | empty => cases something
    | @black leftKey leftStored leftLeft leftRight leftColor height below beside =>
      cases leftColor with
      | red =>
        have same : (value key stored .red (value leftKey leftStored .black leftLeft leftRight) right).movedLeft =
            value key stored .red (value leftKey leftStored .black leftLeft leftRight) right := by
          simp [LLRBNode.movedLeft, below.isRed]
        rw [same]
        exact ⟨_, _, _, List.suffix_rfl, rfl, preparedLeft_red (.black below beside) toRight⟩
      | black =>
        have moved : (value key stored .red (value leftKey leftStored .black leftLeft leftRight) right).movedLeft =
            (value key stored .red (value leftKey leftStored .black leftLeft leftRight) right).moveRedLeft := by
          simp [LLRBNode.movedLeft, below.isRed]
        rw [moved]
        cases toRight with
        | @black rightKey rightStored rightLeft rightRight rightColor _ inside outside =>
          cases rightColor with
          | red =>
            -- The red node below the right child moves to the top, and the root moves down.
            cases inside with
            | @red nextKey nextStored nextLeft nextRight _ before after =>
              rw [moveRedLeft_of_red]
              refine ⟨_, _, _, ?_, ?_, preparedLeft_red (.black (.red below beside) before) (.black after outside)⟩
              · exact ⟨(key, stored) :: nextLeft.inorder, by simp [inorder]⟩
              · simp [inorder]
          | black =>
            have noRed : (value rightKey rightStored .black rightLeft rightRight).left.isRed = false := inside.isRed
            rw [moveRedLeft_of_black noRed]
            refine ⟨_, _, _, ?_, ?_, preparedLeft_flipped (.red below beside) (.red inside outside)⟩
            · exact List.suffix_rfl
            · simp [inorder]

/-- Something that can be removed is there. -/
theorem Loose.inorder_ne_nil (loose : Loose node color height) : node.inorder ≠ [] := by
  cases loose <;> simp [inorder]

/-- Removing the first entry of a loose tree. -/
theorem Loose.removeMin (loose : Loose node color height) :
    Kept node.removeMin color height ∧ node.removeMin.inorder = node.inorder.tail := by
  induction node using removeMin.induct generalizing color height with
  | case1 node nothing =>
    -- Nothing to the left means nothing to the right.
    rw [LLRBNode.removeMin, if_pos nothing]
    cases loose with
    | black toLeft toRight => cases toLeft with
      | red => cases nothing
    | red toLeft toRight =>
      cases toLeft with
      | black => cases nothing
      | empty =>
        rw [toRight.eq_empty]
        exact ⟨.inr .empty, rfl⟩
  | case2 node something ih =>
    rw [LLRBNode.removeMin, if_neg something]
    have root : ∃ key stored left right, node = value key stored color left right := by
      cases loose <;> exact ⟨_, _, _, _, rfl⟩
    obtain ⟨key, stored, left, right, rfl⟩ := root
    obtain ⟨rest, childColor, childHeight, _, entries, prepared⟩ := loose.movedLeft (by simpa using something)
    obtain ⟨kept, tail⟩ := ih prepared.loose
    refine ⟨prepared.kept kept, ?_⟩
    rw [prepared.inorder, tail, inorder, entries, List.tail_append_of_ne_nil prepared.loose.inorder_ne_nil]

/-! ### The search for a key that is not there -/

/-- Without a left child nothing is prepared. -/
theorem movedLeft_of_isEmpty (nothing : node.left.isEmpty = true) : node.movedLeft = node := by
  simp [movedLeft, nothing]

/-- The entry farthest to the left is the first one. -/
theorem min_eq_head? (node : LLRBNode K V) : node.min = node.inorder.head? := by
  induction node with
  | empty => rfl
  | value key stored color left right leftIh =>
    -- The minimum is on the left unless there is nothing.
    cases left with
    | empty => simp [LLRBNode.min, inorder]
    | value => simpa [LLRBNode.min, inorder] using leftIh

variable [LinearOrder K]

/-- With fewer entries nothing changes, and so with a loose tree. -/
private theorem Loose.remove_absent (loose : Loose node color height)
    (larger : ∀ entry ∈ node.inorder, aKey < entry.1)
    (smaller : ∀ {other : LLRBNode K V} {color : LLRBColor} {height : ℕ}, other.count < node.count →
      Balanced other color height → (∀ entry ∈ other.inorder, aKey < entry.1) →
      Balanced (other.remove aKey) color height ∧ (other.remove aKey).inorder = other.inorder) :
    Balanced (node.remove aKey) color height ∧ (node.remove aKey).inorder = node.inorder := by
  have root : ∃ key stored left right, node = value key stored color left right := by
    cases loose <;> exact ⟨_, _, _, _, rfl⟩
  obtain ⟨key, stored, left, right, rfl⟩ := root
  -- All keys are larger, so the search goes to the left.
  have below : aKey < key := larger (key, stored) (by simp [inorder])
  rw [remove]
  simp only [if_pos below]
  cases something : left.isEmpty with
  | true =>
    have same : (value key stored color left right).movedLeft = value key stored color left right :=
      movedLeft_of_isEmpty something
    rw [same]
    cases left with
    | value => cases something
    | empty =>
      -- The left child is empty, and the node is put together again.
      have unchanged : ((value key stored color .empty right).withLeft (remove aKey .empty)).fixUp =
          value key stored color .empty right := by
        rw [remove, withLeft, fixUp_of_right_black]
        · cases loose with
          | red _ toRight => exact toRight.isRed
          | black _ toRight => exact toRight.isRed
        · exact fun red => (by cases red)
      rw [left_value, unchanged]
      exact ⟨loose.balanced, rfl⟩
  | false =>
    obtain ⟨rest, childColor, childHeight, _, entries, prepared⟩ := loose.movedLeft something
    -- The left child has fewer entries than the node, and nothing changes below it.
    have fewer : (value key stored color left right).movedLeft.left.count <
        (value key stored color left right).count :=
      count_left_lt (count_movedLeft_le _) (by simp only [count]; omega)
    obtain ⟨exact, same⟩ := smaller fewer prepared.loose.balanced fun entry member => larger entry (by
      rw [inorder, entries]
      exact List.mem_append_left _ member)
    refine ⟨prepared.exact exact, ?_⟩
    rw [prepared.inorder, same, inorder, entries]

/-- Removing a key below all others changes neither the entries nor the balance. -/
theorem Balanced.remove_absent (balanced : Balanced node color height)
    (larger : ∀ entry ∈ node.inorder, aKey < entry.1) :
    Balanced (node.remove aKey) color height ∧ (node.remove aKey).inorder = node.inorder := by
  -- By induction on the number of entries.
  induction size : node.count using Nat.strong_induction_on generalizing node color height with
  | _ count ih =>
    subst size
    have smaller : ∀ {other : LLRBNode K V} {color : LLRBColor} {height : ℕ}, other.count < node.count →
        Balanced other color height → (∀ entry ∈ other.inorder, aKey < entry.1) →
        Balanced (other.remove aKey) color height ∧ (other.remove aKey).inorder = other.inorder :=
      fun fewer balanced larger => ih _ fewer balanced larger rfl
    cases balanced with
    | empty =>
      rw [remove]
      exact ⟨.empty, rfl⟩
    | red toLeft toRight => exact (Loose.red toLeft toRight).remove_absent larger smaller
    | @black key stored left right leftColor height toLeft toRight =>
      cases leftColor with
      | red => exact (Loose.black toLeft toRight).remove_absent larger smaller
      | black =>
        -- With a red root the tree would be loose, and the colour of the root plays no role.
        have redder : Loose (value key stored .red left right) .red height := .red toLeft toRight
        obtain ⟨exact, same⟩ := redder.remove_absent larger smaller
        have flips : value key stored .black left right = (value key stored .red left right).flipped := rfl
        rw [flips, remove_flipped, inorder_flipped, inorder_flipped]
        exact ⟨exact.flipped_red, same⟩

/-! ### The right side -/

/-- A tree from which a key can be removed: it is loose, or leaning to the side where the key is. -/
inductive Removable (aKey : K) : LLRBNode K V → LLRBColor → ℕ → Prop where
  | loose {node : LLRBNode K V} {color : LLRBColor} {height : ℕ} (loose : Loose node color height) :
      Removable aKey node color height
  | leaning {key : K} {stored : V} {left right : LLRBNode K V} {height : ℕ} (notAbove : key ≤ aKey)
      (toLeft : Balanced left .black height) (toRight : Balanced right .red height) :
      Removable aKey (.value key stored .black left right) .black (height + 1)

/-- A node whose right child can be changed. -/
structure PreparedRight (aKey : K) (key : K) (color : LLRBColor) (left right : LLRBNode K V)
    (wholeColor : LLRBColor) (height : ℕ) (childColor : LLRBColor) (childHeight : ℕ) : Prop where
  -- The entry that is removed itself is replaced by the first one of the right child.
  child : Loose right childColor childHeight ∨ key < aKey ∧ Removable aKey right childColor childHeight
  kept : ∀ (key : K) (stored : V) {child : LLRBNode K V}, Kept child childColor childHeight →
    Kept (value key stored color left child).fixUp wholeColor height

/-- A black node with a red child on the right. -/
private theorem preparedRight_leaning (toLeft : Balanced left .black height) (toRight : Balanced right .red height) :
    PreparedRight aKey key .black left right .black (height + 1) .red height := by
  refine ⟨.inl toRight.loose, fun key stored child kept => .inl ?_⟩
  rcases kept with balanced | balanced
  · -- A red right child moves up.
    cases balanced with
    | red below beside =>
      rw [fixUp_of_right_red toLeft.isRed beside.isRed]
      exact .black (.red toLeft below) beside
  · rw [fixUp_of_right_black balanced.isRed toLeft.noRow]
    exact .black toLeft balanced

/-- A red node with a black child on the right. -/
private theorem preparedRight_red (toLeft : Balanced left .black height)
    (child : Loose right .black height ∨ key < aKey ∧ Removable aKey right .black height) :
    PreparedRight aKey key .red left right .red height .black height := by
  refine ⟨child, fun key stored child kept => .inl ?_⟩
  -- The child keeps its number of black nodes in either case.
  have balanced := kept.elim id id
  rw [fixUp_of_right_black balanced.isRed toLeft.noRow]
  exact .red toLeft balanced

/-- A black node with two red children, in the place of a red one. -/
private theorem preparedRight_flipped (toLeft : Balanced left .red height) (toRight : Balanced right .red height) :
    PreparedRight aKey key .black left right .red (height + 1) .red height := by
  refine ⟨.inl toRight.loose, fun key stored child kept => ?_⟩
  -- The removal leaves the child red, or black with one red node less.
  rcases kept with balanced | balanced
  · rw [fixUp_of_both_red toLeft.isRed balanced.isRed toLeft.left_isRed]
    exact .inl (.red toLeft.flipped_red balanced.flipped_red)
  · rw [fixUp_of_right_black balanced.isRed toLeft.noRow]
    exact .inr (.black toLeft balanced)

/-- A tree with the key at its root or on the right is a single node or can be prepared. -/
theorem Removable.movedRight (removable : Removable aKey (value key stored color left right) color height)
    (notBelow : key ≤ aKey) (leftSmaller : ∀ entry ∈ left.inorder, entry.1 < key) :
    (left = .empty ∧ right = .empty ∧ color = .red ∧ height = 0) ∨
      ∃ movedKey movedStored movedColor movedLeft movedRight childColor childHeight,
        (value key stored color left right).movedRight =
            value movedKey movedStored movedColor movedLeft movedRight ∧
          left.inorder ++ (key, stored) :: right.inorder =
            movedLeft.inorder ++ (movedKey, movedStored) :: movedRight.inorder ∧
          movedKey ≤ aKey ∧
          PreparedRight aKey movedKey movedColor movedLeft movedRight color height childColor childHeight := by
  cases removable with
  | leaning _ toLeft toRight =>
    have same : (value key stored .black left right).movedRight = value key stored .black left right := by
      simp [LLRBNode.movedRight, toLeft.isRed, toRight.isRed]
    exact .inr ⟨_, _, _, _, _, _, _, same, rfl, notBelow, preparedRight_leaning toLeft toRight⟩
  | loose loose =>
    cases loose with
    | black toLeft toRight =>
      -- The red left child moves to the top.
      cases toLeft with
      | @red leftKey leftStored leftLeft leftRight height before after =>
        have moved : (value key stored .black (value leftKey leftStored .red leftLeft leftRight) right).movedRight =
            value leftKey leftStored .black leftLeft (value key stored .red leftRight right) := by
          simp [LLRBNode.movedRight, rotateRight]
        have less : leftKey < key := leftSmaller (leftKey, leftStored) (by simp [inorder])
        exact .inr ⟨_, _, _, _, _, _, _, moved, by simp [inorder], (less.trans_le notBelow).le,
          preparedRight_leaning before (.red after toRight)⟩
    | red toLeft toRight =>
      have noLeft := toLeft.isRed
      cases toRight with
      | empty => exact .inl ⟨toLeft.eq_empty, rfl, rfl, rfl⟩
      | @black rightKey rightStored rightLeft rightRight rightColor height inside outside =>
        cases rightColor with
        | red =>
          have same : (value key stored .red left
              (value rightKey rightStored .black rightLeft rightRight)).movedRight =
                value key stored .red left (value rightKey rightStored .black rightLeft rightRight) := by
            simp [LLRBNode.movedRight, noLeft, inside.isRed]
          exact .inr ⟨_, _, _, _, _, _, _, same, rfl, notBelow,
            preparedRight_red toLeft (.inl (.black inside outside))⟩
        | black =>
          have moved : (value key stored .red left
              (value rightKey rightStored .black rightLeft rightRight)).movedRight =
                (value key stored .red left
                  (value rightKey rightStored .black rightLeft rightRight)).moveRedRight := by
            simp [LLRBNode.movedRight, noLeft, inside.isRed]
          rw [moved]
          have reddened : Balanced (value rightKey rightStored .red rightLeft rightRight) .red height :=
            .red inside outside
          cases toLeft with
          | @black leftKey leftStored leftLeft leftRight leftColor _ before after =>
            cases leftColor with
            | red =>
              -- The left child moves to the top, and the root leans to the right below it.
              rw [moveRedRight_of_red before.isRed]
              have less : leftKey < key := leftSmaller (leftKey, leftStored) (by simp [inorder])
              exact .inr ⟨_, _, _, _, _, _, _, rfl, by simp [inorder], (less.trans_le notBelow).le,
                preparedRight_red before.flipped_red
                  (.inr ⟨less.trans_le notBelow, .leaning notBelow after reddened⟩)⟩
            | black =>
              have noRed : (value leftKey leftStored .black leftLeft leftRight).left.isRed = false := before.isRed
              rw [moveRedRight_of_black noRed]
              exact .inr ⟨_, _, _, _, _, _, _, rfl, by simp [inorder], notBelow,
                preparedRight_flipped (.red before after) reddened⟩

/-- Removing a key leaves all other entries, in a tree that is still balanced. -/
theorem Removable.remove (removable : Removable aKey node color height)
    (sorted : Entries.Sorted node.inorder) :
    Kept (node.remove aKey) color height ∧ (node.remove aKey).inorder = Entries.drop aKey node.inorder := by
  -- By induction on the number of entries.
  induction size : node.count using Nat.strong_induction_on generalizing node color height with
  | _ count ih =>
    subst size
    have root : ∃ key stored color left right, node = value key stored color left right := by
      cases removable with
      | leaning => exact ⟨_, _, _, _, _, rfl⟩
      | loose loose => cases loose <;> exact ⟨_, _, _, _, _, rfl⟩
    obtain ⟨key, stored, nodeColor, left, right, rfl⟩ := root
    obtain rfl : nodeColor = color := by
      cases removable with
      | leaning => rfl
      | loose loose => cases loose <;> rfl
    have positive : 0 < (value key stored nodeColor left right).count := by
      simp only [LLRBNode.count]
      omega
    obtain ⟨leftSorted, restSorted, between⟩ := List.pairwise_append.mp sorted
    obtain ⟨above, rightSorted⟩ := List.pairwise_cons.mp restSorted
    rw [LLRBNode.remove]
    by_cases below : aKey < key
    · simp only [if_pos below]
      have loose : Loose (value key stored nodeColor left right) nodeColor height := by
        cases removable with
        | loose loose => exact loose
        | leaning notAbove => exact absurd below notAbove.not_gt
      have larger : ∀ entry ∈ (key, stored) :: right.inorder, aKey < entry.1 := by
        intro entry member
        rcases List.mem_cons.mp member with rfl | later
        · exact below
        · exact below.trans (above entry later)
      cases something : left.isEmpty with
      | true =>
        -- The key is not there.
        have nothing : left = .empty := by
          cases left with
          | empty => rfl
          | value => cases something
        subst nothing
        obtain ⟨exact, same⟩ := loose.balanced.remove_absent larger
        rw [LLRBNode.remove] at exact same
        simp only [if_pos below] at exact same
        refine ⟨.inl exact, same.trans (Entries.drop_of_absent fun entry member => ?_).symm⟩
        exact (larger entry member).ne'
      | false =>
        obtain ⟨rest, childColor, childHeight, inside, entries, prepared⟩ := loose.movedLeft something
        have fewer := count_left_lt (count_movedLeft_le (value key stored nodeColor left right)) positive
        have childSorted : Entries.Sorted (value key stored nodeColor left right).movedLeft.left.inorder := by
          have whole : Entries.Sorted ((value key stored nodeColor left right).movedLeft.left.inorder ++ rest) :=
            entries ▸ sorted
          exact (List.pairwise_append.mp whole).1
        obtain ⟨kept, dropped⟩ := ih _ fewer (.loose prepared.loose) childSorted rfl
        refine ⟨prepared.kept kept, ?_⟩
        have others : Entries.drop aKey rest = rest :=
          Entries.drop_of_absent fun entry member => (larger entry (inside.subset member)).ne'
        rw [prepared.inorder, dropped, inorder, entries, Entries.drop_append, others]
    · simp only [if_neg below]
      have notBelow : key ≤ aKey := not_lt.mp below
      rcases removable.movedRight notBelow fun entry member => between entry member _ List.mem_cons_self with
        ⟨rfl, rfl, rfl, rfl⟩ | ⟨movedKey, movedStored, movedColor, movedLeft, movedRight, childColor, childHeight,
          moved, entries, notAbove, prepared⟩
      · -- A single red node.
        have alone : (value key stored .red (.empty : LLRBNode K V) .empty).movedRight =
            value key stored .red .empty .empty := by simp [LLRBNode.movedRight]
        rw [alone]
        by_cases same : key = aKey
        · subst same
          simp [key?, Kept, inorder, Entries.drop, Balanced.empty]
        · have unchanged : ((value key stored .red (.empty : LLRBNode K V) .empty).withRight
              (LLRBNode.remove aKey .empty)).fixUp = value key stored .red .empty .empty := by
            simp [LLRBNode.remove, withRight, fixUp]
          simp only [key?, Option.some.injEq, same, if_false, right_value, unchanged]
          refine ⟨.inl (.red .empty .empty), ?_⟩
          simp [inorder, Entries.drop, same]
      · have fewer : movedRight.count < (value key stored nodeColor left right).count := by
          have right := count_right_lt (count_movedRight_le (value key stored nodeColor left right)) positive
          rwa [moved] at right
        have whole : Entries.Sorted (movedLeft.inorder ++ (movedKey, movedStored) :: movedRight.inorder) :=
          entries ▸ sorted
        obtain ⟨_, restWhole, before⟩ := List.pairwise_append.mp whole
        obtain ⟨after, movedSorted⟩ := List.pairwise_cons.mp restWhole
        -- The key is not among the entries to the left.
        have others : Entries.drop aKey movedLeft.inorder = movedLeft.inorder :=
          Entries.drop_of_absent fun entry member =>
            ((before entry member _ List.mem_cons_self).trans_le notAbove).ne
        rw [moved, inorder, entries, Entries.drop_append, others]
        by_cases same : movedKey = aKey
        · subst same
          have loose : Loose movedRight childColor childHeight :=
            prepared.child.resolve_right fun less => less.1.false
          obtain ⟨removed, tail⟩ := loose.removeMin
          obtain ⟨first, others, split⟩ := List.exists_cons_of_ne_nil loose.inorder_ne_nil
          rw [split, List.tail_cons] at tail
          have something : movedRight.isEmpty = false := by
            cases loose <;> rfl
          have absent : ∀ entry ∈ movedRight.removeMin.inorder, movedKey < entry.1 := by
            intro entry member
            rw [tail] at member
            exact after entry (by simp [split, member])
          have searched : Kept (movedRight.removeMin.remove movedKey) childColor childHeight ∧
              (movedRight.removeMin.remove movedKey).inorder = others := by
            rcases removed with balanced | balanced
            · exact ⟨.inl (balanced.remove_absent absent).1, (balanced.remove_absent absent).2.trans tail⟩
            · exact ⟨.inr (balanced.remove_absent absent).1, (balanced.remove_absent absent).2.trans tail⟩
          have next : movedRight.min = some (first.1, first.2) := by
            rw [min_eq_head?, split]
            rfl
          simp only [key?, if_true, right_value, something, Bool.false_eq_true, if_false, next, withEntry, withRight]
          refine ⟨prepared.kept _ _ searched.1, ?_⟩
          rw [inorder_fixUp, inorder, searched.2, split, Entries.Sorted.drop_cons]
          rw [← split]
          exact restWhole
        · have removableChild : Removable aKey movedRight childColor childHeight :=
            prepared.child.elim .loose fun other => other.2
          obtain ⟨kept, dropped⟩ := ih _ fewer removableChild movedSorted rfl
          simp only [key?, Option.some.injEq, same, if_false, right_value, withRight]
          refine ⟨prepared.kept _ _ kept, ?_⟩
          have passed : Entries.drop aKey ((movedKey, movedStored) :: movedRight.inorder) =
              (movedKey, movedStored) :: Entries.drop aKey movedRight.inorder := by
            simp [Entries.drop, same]
          rw [inorder_fixUp, inorder, dropped, passed]

end LLRBNode

end CardGuru
