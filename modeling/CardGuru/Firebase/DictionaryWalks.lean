import CardGuru.Firebase.DictionaryContents

/-! Predecessors and enumerators walk along the ordered keys of a dictionary, whichever form it has. -/

namespace CardGuru

variable {K V : Type*} [LinearOrder K]

/-! ### Predecessors -/

section Predecessors

open LLRBNode

/-- On its way down, the search remembers the last key below the one it looks for. -/
theorem TreeSortedDictionary.predecessorFrom_eq (key : K) (node : LLRBNode K V) :
    ∀ rightParent : Option K, Entries.Sorted node.inorder →
      predecessorFrom key rightParent node =
        if key ∈ node.inorder.map Prod.fst then
          .ok (((node.inorder.map Prod.fst).filter (· < key)).getLast?.or rightParent)
        else .error .treeNonexistentKey := by
  induction node with
  | empty =>
    intro rightParent _
    rfl
  | value other stored color left right leftIh rightIh =>
    intro rightParent sorted
    obtain ⟨leftSorted, restSorted, between⟩ := List.pairwise_append.mp sorted
    obtain ⟨above, rightSorted⟩ := List.pairwise_cons.mp restSorted
    have leftSmaller : ∀ key ∈ left.inorder.map Prod.fst, key < other := by
      intro key member
      obtain ⟨entry, inside, rfl⟩ := List.mem_map.mp member
      exact between entry inside _ List.mem_cons_self
    have rightGreater : ∀ key ∈ right.inorder.map Prod.fst, other < key := by
      intro key member
      obtain ⟨entry, inside, rfl⟩ := List.mem_map.mp member
      exact above entry inside
    simp only [predecessorFrom, inorder, List.map_append, List.map_cons]
    generalize keysLeft : left.inorder.map Prod.fst = before at leftSmaller leftIh
    generalize right.inorder.map Prod.fst = after at rightGreater rightIh
    -- No key on the right is below one that is not above the key of the node.
    have noneRight : key ≤ other → after.filter (· < key) = [] := by
      intro notAbove
      rw [List.filter_eq_nil_iff]
      intro next member smaller
      exact (of_decide_eq_true smaller).not_ge (notAbove.trans (rightGreater next member).le)
    by_cases same : key = other
    · subst same
      have allLeft : before.filter (· < key) = before := by
        rw [List.filter_eq_self]
        exact fun next member => decide_eq_true (leftSmaller next member)
      have present : key ∈ before ++ key :: after := by simp
      rw [if_pos rfl, if_pos present, List.filter_append, allLeft, List.filter_cons_of_neg (by simp),
        noneRight (le_refl key), List.append_nil]
      cases left with
      | empty =>
        subst keysLeft
        rfl
      | value next inner innerColor innerLeft innerRight =>
        -- The greatest key on the left is the predecessor.
        rw [isEmpty_value, if_neg Bool.false_ne_true, maxKey_eq_getLast?, ← List.getLast?_map, keysLeft]
        have something : before ≠ [] := by
          rw [← keysLeft]
          simp [inorder]
        rw [List.getLast?_eq_some_getLast something, Option.some_or]
    · rw [if_neg same]
      by_cases below : key < other
      · rw [if_pos below, leftIh rightParent leftSorted, List.filter_append,
          List.filter_cons_of_neg (by simpa using below.le), noneRight below.le, List.append_nil]
        have notRight : key ∉ after := fun member => below.not_gt (rightGreater key member)
        simp only [List.mem_append, List.mem_cons, same, notRight, or_false]
      · have greater : other < key := lt_of_le_of_ne (not_lt.mp below) (Ne.symm same)
        have notLeft : key ∉ before := fun member => greater.not_gt (leftSmaller key member)
        rw [if_neg below, rightIh (some other) rightSorted, List.filter_append,
          List.filter_cons_of_pos (by simpa using greater),
          List.getLast?_append_of_ne_nil _ (List.cons_ne_nil _ _), List.getLast?_cons]
        simp only [List.mem_append, List.mem_cons, same, notLeft, false_or]
        -- The key of the node is the predecessor if there is no greater one.
        split
        · cases (after.filter (· < key)).getLast? <;> rfl
        · rfl

/-- The key before the position of a key is its predecessor. -/
theorem ArraySortedDictionary.getPredecessorKey_ofEntries {entries : List (K × V)}
    (sorted : Entries.Sorted entries) (key : K) :
    (ofEntries entries).getPredecessorKey key =
      if key ∈ entries.map Prod.fst then .ok ((entries.map Prod.fst).filter (· < key)).getLast?
      else .error .arrayNonexistentKey := by
  rw [getPredecessorKey]
  cases found : findKey key (ofEntries entries).keys with
  | none =>
    have absent : key ∉ entries.map Prod.fst := by
      intro member
      obtain ⟨entry, inside, same⟩ := List.mem_map.mp member
      exact findKey_none sorted found entry inside same
    rw [if_neg absent]
  | some pos =>
    obtain ⟨before, old, after, rfl, rfl⟩ := findKey_some found
    have present : key ∈ (before ++ (key, old) :: after).map Prod.fst := by simp
    have smaller := smaller_before sorted
    obtain ⟨greater, _⟩ := List.pairwise_cons.mp (List.pairwise_append.mp sorted).2.1
    -- The smaller keys are the ones before the position.
    have filtered : ((before ++ (key, old) :: after).map Prod.fst).filter (· < key) = before.map Prod.fst := by
      rw [List.map_append, List.map_cons, List.filter_append, List.filter_cons_of_neg (by simp),
        List.filter_eq_self.mpr, List.filter_eq_nil_iff.mpr, List.append_nil]
      · intro other member less
        obtain ⟨entry, inside, rfl⟩ := List.mem_map.mp member
        exact (of_decide_eq_true less).not_gt (greater entry inside)
      · intro other member
        obtain ⟨entry, inside, rfl⟩ := List.mem_map.mp member
        exact decide_eq_true (smaller entry inside)
    rw [if_pos present, filtered]
    cases before.eq_nil_or_concat with
    | inl nothing =>
      subst nothing
      rfl
    | inr last =>
      obtain ⟨front, entry, rfl⟩ := last
      simp [ofEntries]

end Predecessors

/-! ### Enumerators of arrays -/

namespace ArraySortedDictionaryEnumerator

omit [LinearOrder K]

/-- The keys that are still to be returned. -/
def keysLeft (enumerator : ArraySortedDictionaryEnumerator K) : List K :=
  if enumerator.reverse then (enumerator.keys.take (enumerator.pos + 1).toNat).reverse
  else enumerator.keys.drop enumerator.pos.toNat

/-- A position that an enumerator can have. -/
def Placed (enumerator : ArraySortedDictionaryEnumerator K) : Prop :=
  if enumerator.reverse then -1 ≤ enumerator.pos ∧ enumerator.pos < enumerator.keys.length
  else 0 ≤ enumerator.pos

/-- In reverse, the position is that of the last key that is left. -/
theorem start_reverse {keys : List K} {pos : ℤ} {count : ℕ} (next : pos + 1 = count)
    (inside : count ≤ keys.length) :
    Placed ⟨keys, pos, true⟩ ∧ keysLeft ⟨keys, pos, true⟩ = (keys.take count).reverse := by
  have lower : -1 ≤ pos := by omega
  have upper : pos < keys.length := by omega
  refine ⟨⟨lower, upper⟩, ?_⟩
  show (keys.take (pos + 1).toNat).reverse = _
  rw [next, Int.toNat_natCast]

/-- The enumerator works through the keys on its side of the position. -/
theorem worksThrough : Enumerate.WorksThrough (nextObject (K := K)) Placed keysLeft := by
  have step : ∀ {enumerator : ArraySortedDictionaryEnumerator K}, Placed enumerator →
      enumerator.nextObject.1 = enumerator.keysLeft.head? ∧
        enumerator.nextObject.2.keysLeft = enumerator.keysLeft.tail ∧ Placed enumerator.nextObject.2 := by
    rintro ⟨keys, pos, reverse⟩ placed
    cases reverse with
    | false =>
      have notBelow : 0 ≤ pos := by simpa [Placed] using placed
      obtain ⟨index, rfl⟩ := Int.eq_ofNat_of_zero_le notBelow
      by_cases inside : index < keys.length
      · have next : ((index : ℤ) + 1).toNat = index + 1 := by omega
        simp [nextObject, keysLeft, Placed, inside, next, List.head?_drop]
        omega
      · simp [nextObject, keysLeft, Placed, inside, List.drop_eq_nil_of_le (Nat.le_of_not_lt inside)]
    | true =>
      obtain ⟨lower, upper⟩ : -1 ≤ pos ∧ pos < keys.length := by simpa [Placed] using placed
      by_cases passed : pos = -1
      · subst passed
        simpa [nextObject, keysLeft, Placed] using upper
      · -- The key at the position is the last one that is left.
        obtain ⟨index, rfl⟩ := Int.eq_ofNat_of_zero_le (show 0 ≤ pos by omega)
        have inside : index < keys.length := by omega
        have next : ((index : ℤ) + 1).toNat = index + 1 := by omega
        have left : keysLeft ⟨keys, index, true⟩ = keys[index] :: (keys.take index).reverse := by
          show (keys.take ((index : ℤ) + 1).toNat).reverse = _
          rw [next, List.take_succ_eq_append_getElem inside, List.reverse_append]
          rfl
        rw [left]
        simp [nextObject, keysLeft, Placed, inside]
        omega
  exact ⟨fun placed => (step placed).1, fun placed => (step placed).2.1, fun placed => (step placed).2.2⟩

end ArraySortedDictionaryEnumerator

/-- The keys of an ordered list in a direction, from a start key on. -/
def keysOnFrom (keys : List K) : (startKey : Option K) → (isReverse : Bool) → List K
  | none, false => keys
  | none, true => keys.reverse
  | some startKey, false => keys.filter (startKey ≤ ·)
  | some startKey, true => (keys.filter (· ≤ startKey)).reverse

/-- The keys that an enumerator of an array starts with. -/
theorem ArraySortedDictionary.keysLeft_start {entries : List (K × V)} (sorted : Entries.Sorted entries)
    (startKey : Option K) (isReverse : Bool) :
    ((ofEntries entries).start startKey isReverse).Placed ∧
      ((ofEntries entries).start startKey isReverse).keysLeft =
        keysOnFrom (entries.map Prod.fst) startKey isReverse := by
  cases startKey with
  | none =>
    cases isReverse with
    | false => exact ⟨le_refl (0 : ℤ), List.drop_zero⟩
    | true =>
      obtain ⟨placed, left⟩ := ArraySortedDictionaryEnumerator.start_reverse
        (Int.sub_add_cancel ((entries.map Prod.fst).length : ℤ) 1) (le_refl (entries.map Prod.fst).length)
      exact ⟨placed, left.trans (congrArg List.reverse List.take_length)⟩
  | some startKey =>
    obtain ⟨before, after, rfl, position, below, notBelow⟩ := findInsertPositionForKey_eq sorted startKey
    -- The keys before the position are smaller than the start key, and the others are not.
    have skipped : ∀ key ∈ before.map Prod.fst, key < startKey := by
      intro key member
      obtain ⟨entry, inside, rfl⟩ := List.mem_map.mp member
      exact below entry inside
    have returned : ∀ key ∈ after.map Prod.fst, startKey ≤ key := by
      intro key member
      obtain ⟨entry, inside, rfl⟩ := List.mem_map.mp member
      exact notBelow entry inside
    have rising : (after.map Prod.fst).Pairwise (· < ·) :=
      List.pairwise_map.mpr (List.pairwise_append.mp sorted).2.1
    rw [List.map_append] at position ⊢
    have counted : (before.map Prod.fst).length = before.length := List.length_map _
    simp only [start, ofEntries, List.map_append, position]
    generalize before.map Prod.fst = smaller at skipped counted
    generalize after.map Prod.fst = others at returned rising
    rw [← counted]
    cases isReverse with
    | false =>
      have none : smaller.filter (startKey ≤ ·) = [] := by
        rw [List.filter_eq_nil_iff]
        exact fun key member notAbove => (skipped key member).not_ge (of_decide_eq_true notAbove)
      have all : others.filter (startKey ≤ ·) = others := by
        rw [List.filter_eq_self]
        exact fun key member => decide_eq_true (returned key member)
      rw [keysOnFrom, List.filter_append, none, all, List.nil_append]
      exact ⟨Int.natCast_nonneg _, List.drop_left⟩
    | true =>
      have all : smaller.filter (· ≤ startKey) = smaller := by
        rw [List.filter_eq_self]
        exact fun key member => decide_eq_true (skipped key member).le
      rw [keysOnFrom, List.filter_append, all]
      -- Only the first of the other keys can be the start key itself.
      cases others with
      | nil =>
        rw [List.append_nil, if_pos (by simp), List.filter_nil, List.append_nil]
        obtain ⟨placed, left⟩ := ArraySortedDictionaryEnumerator.start_reverse
          (Int.sub_add_cancel (smaller.length : ℤ) 1) (le_refl smaller.length)
        exact ⟨placed, left.trans (congrArg List.reverse List.take_length)⟩
      | cons first others =>
        obtain ⟨greater, _⟩ := List.pairwise_cons.mp rising
        have none : others.filter (· ≤ startKey) = [] := by
          rw [List.filter_eq_nil_iff]
          intro key member notAbove
          exact (of_decide_eq_true notAbove).not_gt
            ((returned first List.mem_cons_self).trans_lt (greater key member))
        have found : (smaller ++ first :: others)[smaller.length]? = some first := by simp
        have larger : smaller.length + 1 ≤ (smaller ++ first :: others).length := by
          rw [List.length_append, List.length_cons]
          omega
        rw [found]
        by_cases exact : first = startKey
        · subst exact
          rw [if_neg (by simp), List.filter_cons_of_pos (by simp), none]
          obtain ⟨placed, left⟩ := ArraySortedDictionaryEnumerator.start_reverse
            (Int.natCast_succ smaller.length).symm larger
          exact ⟨placed, left.trans (congrArg List.reverse (List.take_length_add_append 1))⟩
        · have above : startKey < first :=
            lt_of_le_of_ne (returned first List.mem_cons_self) (Ne.symm exact)
          rw [if_pos (by simpa using exact), List.filter_cons_of_neg (by simpa using above), none, List.append_nil]
          obtain ⟨placed, left⟩ := ArraySortedDictionaryEnumerator.start_reverse
            (Int.sub_add_cancel (smaller.length : ℤ) 1) (Nat.le_of_succ_le larger)
          exact ⟨placed, left.trans (congrArg List.reverse List.take_left)⟩

/-! ### Both forms -/

namespace ImmutableSortedDictionary

variable {dictionary : ImmutableSortedDictionary K V}

/-- What is raised for the predecessor of a key that is not there. -/
def nonexistentKey : ImmutableSortedDictionary K V → SortedDictionaryFault
  | array _ => .arrayNonexistentKey
  | tree _ => .treeNonexistentKey

/-- The predecessor of a key is the greatest of the smaller ones. -/
theorem WellFormed.getPredecessorKey (wellFormed : WellFormed dictionary) (key : K) :
    dictionary.getPredecessorKey key =
      if key ∈ dictionary.contents.map Prod.fst then
        .ok ((dictionary.contents.map Prod.fst).filter (· < key)).getLast?
      else .error dictionary.nonexistentKey := by
  cases wellFormed with
  | tree balanced sorted =>
    rw [ImmutableSortedDictionary.getPredecessorKey, TreeSortedDictionary.getPredecessorKey,
      TreeSortedDictionary.predecessorFrom_eq key _ none sorted, Option.or_none]
    rfl
  | array sorted few =>
    rw [contents_ofEntries]
    exact ArraySortedDictionary.getPredecessorKey_ofEntries sorted key

/-- The keys that an enumerator of a dictionary returns. -/
def enumeratedKeys (startKey : Option K) (isReverse : Bool) (dictionary : ImmutableSortedDictionary K V) : List K :=
  match dictionary, startKey, isReverse with
  -- The comparison that stands for a missing start key is flipped too, and a tree skips every key.
  | tree _, none, true => []
  | _, _, _ => keysOnFrom (dictionary.contents.map Prod.fst) startKey isReverse

/-- The keys of an enumerator in a direction, from a start key on. -/
theorem WellFormed.nextObjects (wellFormed : WellFormed dictionary) (startKey : Option K) (isReverse : Bool)
    (limit : ℕ) :
    dictionary.nextObjects startKey isReverse limit = (dictionary.enumeratedKeys startKey isReverse).take limit := by
  cases wellFormed with
  | @tree dictionary height balanced sorted =>
    rw [ImmutableSortedDictionary.nextObjects, TreeSortedDictionaryEnumerator.objects_start sorted]
    congr 1
    have reversed : TreeSortedDictionaryEnumerator.keysIn true dictionary.root =
        (dictionary.root.inorder.map Prod.fst).reverse := by
      rw [TreeSortedDictionaryEnumerator.keysIn, if_pos rfl, LLRBNode.reverseOrder_eq_reverse, List.map_reverse]
    cases startKey with
    | none =>
      cases isReverse with
      | false =>
        refine List.filter_eq_self.mpr fun key member => ?_
        simp [TreeSortedDictionaryEnumerator.Returned, TreeSortedDictionaryEnumerator.compareToStart]
      | true =>
        refine List.filter_eq_nil_iff.mpr fun key member => ?_
        simp [TreeSortedDictionaryEnumerator.Returned, TreeSortedDictionaryEnumerator.compareToStart]
    | some startKey =>
      cases isReverse with
      | false =>
        exact List.filter_congr fun key _ =>
          decide_eq_decide.mpr TreeSortedDictionaryEnumerator.returned_forwards
      | true =>
        rw [reversed, List.filter_reverse]
        exact congrArg List.reverse (List.filter_congr fun key _ =>
          decide_eq_decide.mpr TreeSortedDictionaryEnumerator.returned_reverse)
  | @array entries sorted few =>
    obtain ⟨placed, keys⟩ := ArraySortedDictionary.keysLeft_start sorted startKey isReverse
    rw [ImmutableSortedDictionary.nextObjects,
      ArraySortedDictionaryEnumerator.worksThrough.objects_eq_take limit placed, keys]
    simp only [enumeratedKeys, contents_ofEntries]

end ImmutableSortedDictionary

end CardGuru
