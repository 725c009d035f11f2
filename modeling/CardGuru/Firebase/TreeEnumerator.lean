import CardGuru.Firebase.TreeSortedDictionary
import CardGuru.Lib.Enumerate

/-! The enumerators of a search tree return its keys in order, from a start key on. -/

namespace CardGuru

namespace TreeSortedDictionaryEnumerator

open LLRBNode

variable {K V : Type*} {isReverse : Bool}

/-- The keys of a tree in a direction. -/
def keysIn (isReverse : Bool) (node : LLRBNode K V) : List K :=
  (if isReverse then node.reverseOrder else node.inorder).map Prod.fst

/-- The key of a node, followed by the keys on its far side. -/
def keysFrom (isReverse : Bool) (node : LLRBNode K V) : List K :=
  node.key?.toList ++ keysIn isReverse (farChild isReverse node)

/-- The keys that are still to be returned. -/
def keysLeft (enumerator : TreeSortedDictionaryEnumerator K V) : List K :=
  enumerator.stack.flatMap (keysFrom enumerator.isReverse)

/-- Every node on the stack has an entry. -/
def Stacked (stack : List (LLRBNode K V)) : Prop :=
  ∀ node ∈ stack, node.isEmpty = false

/-- The keys of a tree are those of its near side, its own, and those of its far side. -/
theorem keysIn_value (isReverse : Bool) (key : K) (stored : V) (color : LLRBColor) (left right : LLRBNode K V) :
    keysIn isReverse (value key stored color left right) =
      keysIn isReverse (nearChild isReverse (value key stored color left right)) ++
        keysFrom isReverse (value key stored color left right) := by
  -- In reverse the sides change places.
  cases isReverse <;> simp [keysIn, keysFrom, nearChild, farChild, inorder, reverseOrder, key?]

/-- A node with an entry can be pushed. -/
theorem Stacked.cons {stack : List (LLRBNode K V)} (stacked : Stacked stack) {node : LLRBNode K V}
    (something : node.isEmpty = false) : Stacked (node :: stack) := by
  intro other member
  -- A stack holds no empty nodes, and this one is not empty.
  rcases List.mem_cons.mp member with rfl | member
  · exact something
  · exact stacked other member

/-! ### All keys of a tree -/

/-- Pushing a tree adds all of its keys. -/
theorem pushAll_spec (isReverse : Bool) (node : LLRBNode K V) :
    ∀ {stack : List (LLRBNode K V)}, Stacked stack →
      Stacked (pushAll isReverse node stack) ∧
        (pushAll isReverse node stack).flatMap (keysFrom isReverse) =
          keysIn isReverse node ++ stack.flatMap (keysFrom isReverse) := by
  induction node with
  | empty =>
    intro stack stacked
    refine ⟨stacked, ?_⟩
    cases isReverse <;> rfl
  | value key stored color left right leftIh rightIh =>
    intro stack stacked
    have pushed : Stacked (value key stored color left right :: stack) := stacked.cons rfl
    rw [keysIn_value, List.append_assoc, ← List.flatMap_cons]
    -- The near child is the one that is pushed next.
    cases isReverse with
    | false => exact leftIh pushed
    | true => exact rightIh pushed

/-- The enumerator works through the keys of the nodes on its stack. -/
theorem worksThrough :
    Enumerate.WorksThrough (nextObject (K := K) (V := V)) (fun enumerator => Stacked enumerator.stack)
      keysLeft := by
  -- The node on top has a key, and its far side is pushed in its place.
  have step : ∀ {enumerator : TreeSortedDictionaryEnumerator K V}, Stacked enumerator.stack →
      enumerator.nextObject.1 = enumerator.keysLeft.head? ∧
        enumerator.nextObject.2.keysLeft = enumerator.keysLeft.tail ∧
        Stacked enumerator.nextObject.2.stack := by
    rintro ⟨stack, isReverse⟩ stacked
    cases stack with
    | nil => exact ⟨rfl, rfl, stacked⟩
    | cons node stack =>
      cases node with
      | empty => cases stacked .empty List.mem_cons_self
      | value key stored color left right =>
        have below : Stacked stack := fun other member => stacked other (List.mem_cons_of_mem _ member)
        obtain ⟨after, keys⟩ :=
          pushAll_spec isReverse (farChild isReverse (value key stored color left right)) below
        exact ⟨rfl, keys, after⟩
  exact ⟨fun stacked => (step stacked).1, fun stacked => (step stacked).2.1, fun stacked => (step stacked).2.2⟩

/-! ### The keys from a start key on -/

variable [LinearOrder K] {startKey : Option K}

/-- Whether a key is returned. -/
def Returned (startKey : Option K) (isReverse : Bool) (key : K) : Prop :=
  compareToStart startKey isReverse key ≠ .lt

instance (startKey : Option K) (isReverse : Bool) (key : K) : Decidable (Returned startKey isReverse key) :=
  inferInstanceAs (Decidable (_ ≠ _))

/-- Forwards, the start key and all greater keys are returned. -/
theorem returned_forwards {startKey key : K} : Returned (some startKey) false key ↔ startKey ≤ key := by
  simp only [Returned, compareToStart, Bool.false_eq_true, if_false, ne_eq, compare_lt_iff_lt, not_lt]

/-- In reverse, the start key and all smaller keys are returned. -/
theorem returned_reverse {startKey key : K} : Returned (some startKey) true key ↔ key ≤ startKey := by
  simp only [Returned, compareToStart, if_true, ne_eq, Ordering.swap_eq_lt, compare_gt_iff_gt, not_lt]

/-- Whether a key comes before another in a direction. -/
def Precedes (isReverse : Bool) (earlier later : K) : Prop :=
  if isReverse then later < earlier else earlier < later

/-- Keys before one that is not greater than the start key are skipped. -/
theorem skipped_of_precedes {earlier later : K} (precedes : Precedes isReverse earlier later)
    (notAfter : compareToStart startKey isReverse later ≠ .gt) :
    compareToStart startKey isReverse earlier = .lt := by
  cases startKey with
  -- Without a start key a forward walk skips nothing, and a reverse one everything.
  | none => cases isReverse <;> simp [compareToStart] at notAfter ⊢
  | some startKey =>
    cases isReverse with
    | false =>
      simp only [compareToStart, Bool.false_eq_true, if_false, ne_eq, compare_gt_iff_gt, not_lt,
        compare_lt_iff_lt] at notAfter ⊢
      exact lt_of_lt_of_le precedes notAfter
    -- The comparison is turned around.
    | true =>
      simp only [compareToStart, if_true, ne_eq, Ordering.swap_eq_gt, compare_lt_iff_lt, not_lt,
        Ordering.swap_eq_lt, compare_gt_iff_gt] at notAfter ⊢
      exact lt_of_le_of_lt notAfter precedes

/-- Keys after one that is not less than the start key are returned. -/
theorem returned_of_precedes {earlier later : K} (precedes : Precedes isReverse earlier later)
    (notBefore : Returned startKey isReverse earlier) : Returned startKey isReverse later := by
  -- Otherwise the earlier key would be skipped too.
  intro skipped
  exact notBefore (skipped_of_precedes precedes (by simp [skipped]))

/-- The keys of an ordered tree follow each other in a direction. -/
theorem pairwise_keysIn {node : LLRBNode K V} (isReverse : Bool) (sorted : Entries.Sorted node.inorder) :
    (keysIn isReverse node).Pairwise (Precedes isReverse) := by
  cases isReverse with
  | false => exact List.pairwise_map.mpr sorted
  | true =>
    -- In reverse the keys are those of the order, turned around.
    rw [keysIn, if_pos rfl, reverseOrder_eq_reverse, List.map_reverse, List.pairwise_reverse]
    exact List.pairwise_map.mpr sorted

/-- The nodes of a tree on the way to a start key stand for its keys that are returned. -/
def PushesReturned (startKey : Option K) (isReverse : Bool) (node : LLRBNode K V) : Prop :=
  -- The stack below stays as it is.
  ∀ {stack : List (LLRBNode K V)}, Stacked stack → (keysIn isReverse node).Pairwise (Precedes isReverse) →
    Stacked (pushFrom startKey isReverse node stack) ∧
      (pushFrom startKey isReverse node stack).flatMap (keysFrom isReverse) =
        (keysIn isReverse node).filter (Returned startKey isReverse) ++ stack.flatMap (keysFrom isReverse)

/-- Pushing the nodes on the way to a start key adds the keys that are returned. -/
theorem pushesReturned (startKey : Option K) (isReverse : Bool) (node : LLRBNode K V) :
    PushesReturned startKey isReverse node := by
  induction node with
  | empty =>
    intro stack stacked _
    refine ⟨stacked, ?_⟩
    cases isReverse <;> rfl
  | value key stored color left right leftIh rightIh =>
    intro stack stacked ordered
    have near : PushesReturned startKey isReverse (nearChild isReverse (value key stored color left right)) := by
      cases isReverse with
      | false => exact leftIh
      | true => exact rightIh
    have far : PushesReturned startKey isReverse (farChild isReverse (value key stored color left right)) := by
      cases isReverse with
      | false => exact rightIh
      | true => exact leftIh
    have stepBefore : compareToStart startKey isReverse key = .lt →
        pushFrom startKey isReverse (value key stored color left right) stack =
          pushFrom startKey isReverse (farChild isReverse (value key stored color left right)) stack := by
      intro compared
      cases isReverse <;> simp only [pushFrom, compared] <;> rfl
    have stepAt : compareToStart startKey isReverse key = .eq →
        pushFrom startKey isReverse (value key stored color left right) stack =
          value key stored color left right :: stack := by
      intro compared
      cases isReverse <;> simp only [pushFrom, compared]
    have stepAfter : compareToStart startKey isReverse key = .gt →
        pushFrom startKey isReverse (value key stored color left right) stack =
          pushFrom startKey isReverse (nearChild isReverse (value key stored color left right))
            (value key stored color left right :: stack) := by
      intro compared
      cases isReverse <;> simp only [pushFrom, compared] <;> rfl
    rw [keysIn_value, List.pairwise_append] at ordered
    obtain ⟨nearOrdered, fromOrdered, between⟩ := ordered
    rw [keysFrom, key?, Option.toList_some, List.singleton_append] at fromOrdered between
    obtain ⟨after, farOrdered⟩ := List.pairwise_cons.mp fromOrdered
    have pushed : Stacked (value key stored color left right :: stack) := stacked.cons rfl
    rw [keysIn_value, List.filter_append, keysFrom, key?, Option.toList_some, List.singleton_append]
    -- Once the key of the node is returned, so is everything on the far side.
    have farReturned : Returned startKey isReverse key →
        (key :: keysIn isReverse (farChild isReverse (value key stored color left right))).filter
            (Returned startKey isReverse) =
          key :: keysIn isReverse (farChild isReverse (value key stored color left right)) := by
      intro returned
      rw [List.filter_eq_self]
      intro other member
      rcases List.mem_cons.mp member with rfl | later
      · exact decide_eq_true returned
      · exact decide_eq_true (returned_of_precedes (after other later) returned)
    have nearSkipped : compareToStart startKey isReverse key ≠ .gt →
        (keysIn isReverse (nearChild isReverse (value key stored color left right))).filter
          (Returned startKey isReverse) = [] := by
      intro notAfter
      rw [List.filter_eq_nil_iff]
      intro other member returned
      exact of_decide_eq_true returned
        (skipped_of_precedes (between other member key List.mem_cons_self) notAfter)
    cases compared : compareToStart startKey isReverse key with
    | lt =>
      rw [stepBefore compared]
      obtain ⟨after, keys⟩ := far stacked farOrdered
      have skipped : ¬Returned startKey isReverse key := not_not_intro compared
      rw [nearSkipped (by simp [compared]), List.filter_cons_of_neg (by simpa using skipped), List.nil_append]
      exact ⟨after, keys⟩
    | eq =>
      rw [stepAt compared]
      have returned : Returned startKey isReverse key := by simp [Returned, compared]
      rw [nearSkipped (by simp [compared]), farReturned returned, List.nil_append]
      exact ⟨pushed, rfl⟩
    | gt =>
      rw [stepAfter compared]
      obtain ⟨after, keys⟩ := near pushed nearOrdered
      have returned : Returned startKey isReverse key := by simp [Returned, compared]
      refine ⟨after, ?_⟩
      rw [keys, farReturned returned, List.flatMap_cons, keysFrom, key?, Option.toList_some,
        List.singleton_append, List.append_assoc]

/-- The objects of an enumerator are the keys that are returned. -/
theorem objects_start {dictionary : TreeSortedDictionary K V} (sorted : Entries.Sorted dictionary.root.inorder)
    (startKey : Option K) (isReverse : Bool) (limit : ℕ) :
    Enumerate.objects nextObject limit (start dictionary startKey isReverse) =
      ((keysIn isReverse dictionary.root).filter (Returned startKey isReverse)).take limit := by
  have nothing : Stacked ([] : List (LLRBNode K V)) := fun node member => (by cases member)
  -- The walk starts with an empty stack.
  obtain ⟨stacked, keys⟩ :=
    pushesReturned startKey isReverse dictionary.root nothing (pairwise_keysIn isReverse sorted)
  rw [worksThrough.objects_eq_take limit stacked, keysLeft]
  show ((pushFrom startKey isReverse dictionary.root []).flatMap (keysFrom isReverse)).take limit = _
  rw [keys, List.flatMap_nil, List.append_nil]

end TreeSortedDictionaryEnumerator

end CardGuru
