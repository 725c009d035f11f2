import CardGuru.Firebase.TreeSortedDictionary

/-! A tree built from sorted entries is balanced, and holds these entries. -/

namespace CardGuru

namespace TreeSortedDictionary

open LLRBNode

variable {K V : Type*} {entries : List (K × V)}

/-- Nothing is raised at an index that is there. -/
theorem entryAt_of_lt {index : ℕ} (inside : index < entries.length) :
    entryAt entries index = .ok entries[index] := by
  rw [entryAt, List.getElem?_eq_getElem inside]

/-- A segment is an entry between two shorter segments. -/
theorem segment_split {startIndex middle : ℕ} (inside : startIndex + middle < entries.length) (after : ℕ) :
    (entries.drop startIndex).take (middle + 1 + after) =
      (entries.drop startIndex).take middle ++
        entries[startIndex + middle] :: (entries.drop (startIndex + middle + 1)).take after := by
  -- What remains after the first part begins with the entry.
  have rest : (entries.drop startIndex).drop middle =
      entries[startIndex + middle] :: entries.drop (startIndex + middle + 1) := by
    rw [List.drop_drop, List.drop_eq_getElem_cons inside]
  rw [Nat.add_assoc, List.take_add, rest, Nat.add_comm 1 after, List.take_succ_cons]

/-- A segment that fills all levels of a tree makes a full tree of black nodes. -/
theorem buildBalancedTree_full (height : ℕ) :
    ∀ startIndex : ℕ, startIndex + (2 ^ height - 1) ≤ entries.length →
      ∃ tree, buildBalancedTree entries startIndex (2 ^ height - 1) = .ok tree ∧
        Balanced tree .black height ∧ tree.inorder = (entries.drop startIndex).take (2 ^ height - 1) := by
  induction height with
  | zero =>
    intro startIndex fits
    refine ⟨.empty, ?_, .empty, ?_⟩
    · rw [buildBalancedTree]
      simp
    · simp [inorder]
  | succ height ih =>
    intro startIndex fits
    have positive : 0 < 2 ^ height := Nat.two_pow_pos height
    have doubled : 2 ^ (height + 1) - 1 = (2 ^ height - 1) + 1 + (2 ^ height - 1) := by
      rw [Nat.pow_succ]
      omega
    rw [doubled] at fits ⊢
    -- Both halves are full trees one level lower.
    have inside : startIndex + (2 ^ height - 1) < entries.length := by omega
    obtain ⟨left, builtLeft, toLeft, leftEntries⟩ := ih startIndex (by omega)
    obtain ⟨right, builtRight, toRight, rightEntries⟩ :=
      ih (startIndex + (2 ^ height - 1) + 1) (by omega)
    refine ⟨.value entries[startIndex + (2 ^ height - 1)].1 entries[startIndex + (2 ^ height - 1)].2 .black
      left right, ?_, .black toLeft toRight, ?_⟩
    · have bounded : min (entries.length - startIndex) (2 ^ height - 1 + 1 + (2 ^ height - 1)) =
          2 ^ height - 1 + 1 + (2 ^ height - 1) := by omega
      have halved : (2 ^ height - 1 + 1 + (2 ^ height - 1)) / 2 = 2 ^ height - 1 := by omega
      rw [buildBalancedTree]
      simp only [bounded, halved]
      cases height with
      | zero =>
        -- A single entry has no children.
        rw [toLeft.eq_empty, toRight.eq_empty]
        simp only [Nat.pow_zero, Nat.sub_self, Nat.add_zero] at inside
        simp [entryAt_of_lt inside, bind, Except.bind, pure, Except.pure]
      | succ height =>
        have large : 2 ≤ 2 ^ (height + 1) := by
          have := Nat.two_pow_pos height
          rw [Nat.pow_succ]
          omega
        rw [if_neg (by omega), if_neg (by omega), builtLeft, builtRight, entryAt_of_lt inside]
        rfl
    · rw [inorder, leftEntries, rightEntries, segment_split inside]

/-- A pennant holds the last entries before an index, above a full tree. -/
theorem buildPennant_full {index height : ℕ} (color : LLRBColor) (covered : 2 ^ height ≤ index)
    (inside : index ≤ entries.length) :
    ∃ key stored tree, buildPennant entries index color (2 ^ height) = .ok (.value key stored color .empty tree) ∧
      Balanced tree .black height ∧
      entries.take index = entries.take (index - 2 ^ height) ++ (key, stored) :: tree.inorder := by
  have positive : 0 < 2 ^ height := Nat.two_pow_pos height
  have first : index - 2 ^ height < entries.length := by omega
  have above : index - 2 ^ height + 1 + (2 ^ height - 1) ≤ entries.length := by omega
  obtain ⟨tree, built, toRight, contents⟩ := buildBalancedTree_full height _ above
  refine ⟨entries[index - 2 ^ height].1, entries[index - 2 ^ height].2, tree, ?_, toRight, ?_⟩
  · rw [buildPennant, if_neg (by omega), entryAt_of_lt first]
    simp only [bind, Except.bind, pure, Except.pure, built]
  · -- The entries before the index are those before the pennant and those in it.
    have whole : index = (index - 2 ^ height) + 1 + (2 ^ height - 1) := by omega
    have reached : 0 + (index - 2 ^ height) < entries.length := by omega
    have split := segment_split reached (2 ^ height - 1)
    rw [List.drop_zero, ← whole] at split
    simp only [Nat.zero_add] at split
    rw [split, contents]

/-- The number of entries that the remaining digits stand for. -/
def covered (bits remaining : ℕ) : ℕ :=
  (2 ^ remaining - 1) + bits % 2 ^ remaining

/-- A digit stands for one or two chunks. -/
theorem covered_succ (bits remaining : ℕ) :
    covered bits (remaining + 1) =
      2 ^ remaining + (if bits.testBit remaining then 2 ^ remaining else 0) + covered bits remaining := by
  have positive : 0 < 2 ^ remaining := Nat.two_pow_pos remaining
  have digit : bits % 2 ^ (remaining + 1) =
      bits % 2 ^ remaining + 2 ^ remaining * (bits.testBit remaining).toNat := by
    rw [Nat.pow_succ, Nat.mod_mul, Nat.toNat_testBit]
  have doubled : 2 ^ (remaining + 1) = 2 ^ remaining + 2 ^ remaining := by
    rw [Nat.pow_succ]
    omega
  rw [covered, covered, digit, doubled]
  cases bits.testBit remaining <;> simp <;> omega

/-- The digits of a number stand for the number itself. -/
theorem covered_new (length : ℕ) :
    covered (Base12List.new length).bits (Base12List.new length).count = length := by
  -- The masked bit is the number of entries beyond a full tree.
  have lower : 2 ^ logBase2 (length + 1) ≤ length + 1 := Nat.log2_self_le (by omega)
  have upper : length + 1 < 2 ^ (logBase2 (length + 1) + 1) := Nat.lt_log2_self
  have doubled : 2 ^ (logBase2 (length + 1) + 1) = 2 ^ logBase2 (length + 1) + 2 ^ logBase2 (length + 1) := by
    rw [Nat.pow_succ]
    omega
  have masked : (length + 1) % 2 ^ logBase2 (length + 1) = length + 1 - 2 ^ logBase2 (length + 1) := by
    rw [Nat.mod_eq_sub_mod lower, Nat.mod_eq_of_lt (by omega)]
  have small : length + 1 - 2 ^ logBase2 (length + 1) < 2 ^ logBase2 (length + 1) := by omega
  simp only [covered, Base12List.new, masked, Nat.mod_eq_of_lt small]
  omega

/-- The pennants of the remaining digits make a balanced tree of the entries before an index. -/
theorem rootFrom12List_full (list : Base12List) (remaining index : ℕ)
    (current : list.current = remaining - 1) (exact : index = covered list.bits remaining)
    (inside : index ≤ entries.length) :
    ∃ root, rootFrom12List entries list remaining index = .ok root ∧ Balanced root .black remaining ∧
      root.inorder = entries.take index := by
  -- By induction on the digits that are still to be read.
  induction remaining generalizing list index with
  | zero =>
    have nothing : index = 0 := by simpa [covered, Nat.mod_one] using exact
    refine ⟨.empty, rfl, .empty, ?_⟩
    simp [nothing, inorder]
  | succ remaining ih =>
    have positive : 0 < 2 ^ remaining := Nat.two_pow_pos remaining
    rw [covered_succ] at exact
    simp only [Nat.add_sub_cancel] at current
    have reached : 2 ^ remaining ≤ index := by omega
    obtain ⟨key, stored, tree, built, toRight, contents⟩ := buildPennant_full .black reached inside
    have below : index - 2 ^ remaining ≤ entries.length := by omega
    rw [rootFrom12List]
    simp only [Base12List.next, current, built]
    cases digit : list.bits.testBit remaining with
    | false =>
      obtain ⟨rest, restBuilt, toLeft, restContents⟩ :=
        ih { list with current := remaining - 1 } (index - 2 ^ remaining) rfl
          (by simp only [digit, Bool.false_eq_true, if_false] at exact; show _ = covered list.bits remaining; omega)
          below
      refine ⟨.value key stored .black rest tree, ?_, .black toLeft toRight, ?_⟩
      · simp only [bind, Except.bind, pure, Except.pure, Bool.not_false, if_true, restBuilt, withLeft]
      · rw [inorder, restContents, contents]
    | true =>
      simp only [digit, if_true] at exact
      have further : 2 ^ remaining ≤ index - 2 ^ remaining := by omega
      obtain ⟨secondKey, secondStored, second, secondBuilt, secondRight, secondContents⟩ :=
        buildPennant_full .red further below
      obtain ⟨rest, restBuilt, toLeft, restContents⟩ :=
        ih { list with current := remaining - 1 } (index - 2 ^ remaining - 2 ^ remaining) rfl
          (by show _ = covered list.bits remaining; omega) (by omega)
      -- The second pennant is the red left child of the first.
      refine ⟨.value key stored .black (.value secondKey secondStored .red rest second) tree, ?_,
        .black (.red toLeft secondRight) toRight, ?_⟩
      · simp only [bind, Except.bind, pure, Except.pure, Bool.not_true, Bool.false_eq_true, if_false, secondBuilt,
          restBuilt, withLeft]
      · rw [inorder, inorder, restContents, contents, secondContents]

/-! ### Sorting -/

variable [LinearOrder K]

/-- Two entries of an unsorted dictionary never have the same key. -/
def DistinctKeys (dictionary : List (K × V)) : Prop :=
  (dictionary.map Prod.fst).Nodup

instance (dictionary : List (K × V)) : Decidable (DistinctKeys dictionary) :=
  inferInstanceAs (Decidable (List.Nodup _))

/-- The entries of a dictionary without equal keys are sorted. -/
theorem sortedEntries_of_distinct {dictionary : List (K × V)} (distinct : DistinctKeys dictionary) :
    ∃ sorted, sortedEntries dictionary = .ok sorted ∧ Entries.Sorted sorted ∧ sorted.Perm dictionary := by
  have permuted := List.mergeSort_perm dictionary fun earlier later => decide (earlier.1 ≤ later.1)
  have ordered : (dictionary.mergeSort fun earlier later => decide (earlier.1 ≤ later.1)).Pairwise
      fun earlier later => decide (earlier.1 ≤ later.1) = true := by
    refine List.pairwise_mergeSort (fun first second third before after => ?_) (fun first second => ?_) dictionary
    · simp only [decide_eq_true_eq] at before after ⊢
      exact before.trans after
    · simp only [Bool.or_eq_true, decide_eq_true_eq]
      exact le_total first.1 second.1
  generalize merged : (dictionary.mergeSort fun earlier later => decide (earlier.1 ≤ later.1)) = sorted
    at permuted ordered
  -- Where no two keys are equal, each key is strictly below the later ones.
  have different : (sorted.map Prod.fst).Nodup := (permuted.map Prod.fst).nodup_iff.mpr distinct
  have strict : Entries.Sorted sorted := by
    rw [List.Nodup, List.pairwise_map] at different
    refine ordered.imp₂ ?_ different
    intro earlier later notAbove unequal
    exact lt_of_le_of_ne (of_decide_eq_true notAbove) unequal
  refine ⟨sorted, ?_, strict, permuted⟩
  rw [sortedEntries]
  simp only [merged]
  rw [if_pos (List.Pairwise.isChain strict)]

/-- A dictionary with two equal keys is refused. -/
theorem sortedEntries_of_not_distinct {dictionary : List (K × V)} (repeated : ¬DistinctKeys dictionary) :
    sortedEntries dictionary = .error .sameOrdering := by
  have permuted := List.mergeSort_perm dictionary fun earlier later => decide (earlier.1 ≤ later.1)
  rw [sortedEntries, if_neg]
  intro chain
  -- Keys that each lie above the one before are all different.
  have strict : Entries.Sorted (dictionary.mergeSort fun earlier later => decide (earlier.1 ≤ later.1)) :=
    List.isChain_iff_pairwise.mp chain
  exact repeated ((permuted.map Prod.fst).nodup_iff.mp
    (List.pairwise_map.mpr (strict.imp fun before => before.ne)))

/-- The tree of a dictionary without equal keys. -/
theorem fromDictionary_of_distinct {dictionary : List (K × V)} (distinct : DistinctKeys dictionary) :
    ∃ built height, fromDictionary dictionary = .ok built ∧ Balanced built.root .black height ∧
      Entries.Sorted built.root.inorder ∧ built.root.inorder.Perm dictionary := by
  obtain ⟨sorted, made, strict, permuted⟩ := sortedEntries_of_distinct distinct
  obtain ⟨root, built, balanced, contents⟩ :=
    rootFrom12List_full (Base12List.new sorted.length) (Base12List.new sorted.length).count sorted.length rfl
      (covered_new sorted.length).symm (le_refl sorted.length)
  rw [List.take_length] at contents
  refine ⟨⟨root⟩, _, ?_, balanced, contents ▸ strict, contents ▸ permuted⟩
  rw [fromDictionary, made]
  simp only [bind, Except.bind, pure, Except.pure, built]

end TreeSortedDictionary

end CardGuru
