import CardGuru.Firebase.SortedDictionary
import CardGuru.Firebase.TreeBuilder

/-! Both forms of a sorted dictionary hold an ordered list of entries, on which each operation does the same. -/

namespace CardGuru

variable {K V : Type*}

namespace ArraySortedDictionary

/-- The dictionary with the given entries. -/
def ofEntries (entries : List (K × V)) : ArraySortedDictionary K V :=
  ⟨entries.map Prod.fst, entries.map Prod.snd⟩

/-- Keys and values are taken from the same entries. -/
@[simp] theorem zip_ofEntries (entries : List (K × V)) :
    (ofEntries entries).keys.zip (ofEntries entries).values = entries := by
  -- Both arrays are read off the same list.
  induction entries with
  | nil => rfl
  | cons entry entries ih => simpa [ofEntries] using ih

variable [LinearOrder K] {entries : List (K × V)} {key : K}

/-- A key that is found stands at the position. -/
theorem findKey_some {pos : ℕ} (found : findKey key (entries.map Prod.fst) = some pos) :
    ∃ before old after, entries = before ++ (key, old) :: after ∧ before.length = pos := by
  induction entries generalizing pos with
  | nil => cases found
  | cons entry entries ih =>
    rw [List.map_cons, findKey] at found
    split at found
    · -- The key stands first.
      rename_i same
      cases found
      exact ⟨[], entry.2, entries, by simp [same], rfl⟩
    · split at found
      · cases found
      · -- The position is counted from the next entry on.
        obtain ⟨next, foundNext, rfl⟩ := Option.map_eq_some_iff.mp found
        obtain ⟨before, old, after, rfl, rfl⟩ := ih foundNext
        exact ⟨entry :: before, old, after, rfl, rfl⟩

/-- In order, the search ends at the key or where it would be. -/
theorem findKey_none (sorted : Entries.Sorted entries) (missing : findKey key (entries.map Prod.fst) = none) :
    ∀ entry ∈ entries, entry.1 ≠ key := by
  induction entries with
  | nil => exact fun entry member => (by cases member)
  | cons head entries ih =>
    obtain ⟨above, rest⟩ := List.pairwise_cons.mp sorted
    rw [List.map_cons, findKey] at missing
    split at missing
    · cases missing
    · rename_i different
      intro entry member
      rcases List.mem_cons.mp member with rfl | later
      · exact Ne.symm different
      · split at missing
        · -- The search stopped at a larger key, and what follows is larger still.
          rename_i below
          exact (below.trans (above entry later)).ne'
        · exact ih rest (Option.map_eq_none_iff.mp missing) entry later

/-- The insert position divides the entries. -/
theorem findInsertPositionForKey_eq (sorted : Entries.Sorted entries) (key : K) :
    ∃ before after, entries = before ++ after ∧
      findInsertPositionForKey (entries.map Prod.fst) key = before.length ∧
      (∀ entry ∈ before, entry.1 < key) ∧ ∀ entry ∈ after, key ≤ entry.1 := by
  induction entries with
  | nil => exact ⟨[], [], rfl, rfl, by simp, by simp⟩
  | cons head entries ih =>
    obtain ⟨above, rest⟩ := List.pairwise_cons.mp sorted
    by_cases smaller : head.1 < key
    · -- A smaller entry is passed over.
      obtain ⟨before, after, split, position, below, notBelow⟩ := ih rest
      refine ⟨head :: before, after, by rw [split, List.cons_append], ?_, ?_, notBelow⟩
      · rw [findInsertPositionForKey] at position ⊢
        rw [List.map_cons, List.findIdx_cons]
        simp [smaller, position]
      · intro entry member
        rcases List.mem_cons.mp member with rfl | member
        · exact smaller
        · exact below entry member
    · -- The first entry that is not smaller gives the position.
      have notBelow : key ≤ head.1 := not_lt.mp smaller
      refine ⟨[], head :: entries, rfl, ?_, by simp, ?_⟩
      · rw [findInsertPositionForKey, List.map_cons, List.findIdx_cons]
        simp [smaller]
      · intro entry member
        rcases List.mem_cons.mp member with rfl | later
        · exact notBelow
        · exact notBelow.trans (above entry later).le

/-- In an ordered list the keys before an entry are smaller. -/
theorem smaller_before {before after : List (K × V)} {stored : V}
    (sorted : Entries.Sorted (before ++ (key, stored) :: after)) : ∀ entry ∈ before, entry.1 < key :=
  fun entry member => (List.pairwise_append.mp sorted).2.2 entry member _ List.mem_cons_self

/-- Replacing a value at the position of its key. -/
theorem set_ofEntries {before after : List (K × V)} {old : V} (stored : V)
    (sorted : Entries.Sorted (before ++ (key, old) :: after)) :
    (⟨(ofEntries (before ++ (key, old) :: after)).keys.set before.length key,
      (ofEntries (before ++ (key, old) :: after)).values.set before.length stored⟩ : ArraySortedDictionary K V) =
        ofEntries (Entries.put key stored (before ++ (key, old) :: after)) := by
  -- What stands before is smaller, so the value is stored behind it.
  rw [Entries.put_append_right stored (smaller_before sorted)]
  simp [ofEntries, Entries.put]

/-- An object inserted between two parts of a list. -/
private theorem insertIdx_between {O : Type*} (before after : List O) (object : O) {position : ℕ}
    (between : position = before.length) :
    (before ++ after).insertIdx position object = before ++ object :: after := by
  -- The position is counted down along the first part.
  subst between
  induction before with
  | nil => exact List.insertIdx_zero
  | cons first before ih => rw [List.cons_append, List.length_cons, List.insertIdx_succ_cons, ih, List.cons_append]

/-- Inserting an entry at the position of its key. -/
theorem insertIdx_ofEntries (sorted : Entries.Sorted entries) (absent : ∀ entry ∈ entries, entry.1 ≠ key)
    (stored : V) :
    (⟨(ofEntries entries).keys.insertIdx (findInsertPositionForKey (ofEntries entries).keys key) key,
      (ofEntries entries).values.insertIdx (findInsertPositionForKey (ofEntries entries).keys key) stored⟩ :
        ArraySortedDictionary K V) = ofEntries (Entries.put key stored entries) := by
  obtain ⟨before, after, rfl, position, below, notBelow⟩ := findInsertPositionForKey_eq sorted key
  rw [Entries.put_append_right stored below]
  simp only [ofEntries, position]
  -- What comes after the position is greater than the key.
  have first : Entries.put key stored after = (key, stored) :: after := by
    cases after with
    | nil => rfl
    | cons entry after =>
      have greater : key < entry.1 :=
        lt_of_le_of_ne (notBelow entry List.mem_cons_self) (absent entry (by simp)).symm
      rw [Entries.put, if_pos greater]
  rw [first]
  simp only [List.map_append, List.map_cons]
  rw [insertIdx_between _ _ _ (List.length_map _).symm,
    insertIdx_between _ _ _ (List.length_map _).symm]

/-- Removing the entry at the position of its key. -/
theorem eraseIdx_ofEntries {before after : List (K × V)} {old : V}
    (sorted : Entries.Sorted (before ++ (key, old) :: after)) :
    (⟨(ofEntries (before ++ (key, old) :: after)).keys.eraseIdx before.length,
      (ofEntries (before ++ (key, old) :: after)).values.eraseIdx before.length⟩ : ArraySortedDictionary K V) =
        ofEntries (Entries.drop key (before ++ (key, old) :: after)) := by
  -- Neither part holds the key a second time.
  have others : Entries.drop key before = before :=
    Entries.drop_of_absent fun entry member => (smaller_before sorted entry member).ne
  have rest : Entries.drop key ((key, old) :: after) = after :=
    Entries.Sorted.drop_cons (List.pairwise_append.mp sorted).2.1
  rw [Entries.drop_append, others, rest]
  simp [ofEntries, List.eraseIdx_append_of_length_le]

end ArraySortedDictionary

namespace ImmutableSortedDictionary

open LLRBNode

/-- The entries of a dictionary in order. -/
def contents (dictionary : ImmutableSortedDictionary K V) : List (K × V) :=
  dictionary.enumerateKeysAndObjectsReverse false

@[simp] theorem contents_ofEntries (entries : List (K × V)) :
    (array (.ofEntries entries)).contents = entries :=
  ArraySortedDictionary.zip_ofEntries entries

@[simp] theorem contents_tree (dictionary : TreeSortedDictionary K V) :
    (tree dictionary).contents = dictionary.root.inorder := rfl

/-- The reverse traversal visits the entries in the opposite order. -/
theorem enumerate_reverse (dictionary : ImmutableSortedDictionary K V) :
    dictionary.enumerateKeysAndObjectsReverse true = dictionary.contents.reverse := by
  -- The array form reverses its entries by definition.
  cases dictionary with
  | array dictionary => rfl
  | tree dictionary => exact reverseOrder_eq_reverse dictionary.root

variable [LinearOrder K]

/-- A dictionary as the operations make it: in order, and balanced or small. -/
inductive WellFormed : ImmutableSortedDictionary K V → Prop where
  | array {entries : List (K × V)} (sorted : Entries.Sorted entries)
      (few : entries.length ≤ SORTED_DICTIONARY_ARRAY_TO_RB_TREE_SIZE_THRESHOLD) :
      WellFormed (.array (.ofEntries entries))
  | tree {dictionary : TreeSortedDictionary K V} {height : ℕ} (balanced : Balanced dictionary.root .black height)
      (sorted : Entries.Sorted dictionary.root.inorder) : WellFormed (.tree dictionary)

variable {dictionary : ImmutableSortedDictionary K V}

/-- The entries of a dictionary are in order. -/
theorem WellFormed.sorted (wellFormed : WellFormed dictionary) : Entries.Sorted dictionary.contents := by
  -- Each form keeps its order as a part of its invariant.
  cases wellFormed with
  | array sorted few => rwa [contents_ofEntries]
  | tree balanced sorted => exact sorted

/-- A dictionary without entries. -/
theorem wellFormed_dictionaryWithComparator :
    WellFormed (dictionaryWithComparator : ImmutableSortedDictionary K V) := by
  -- The empty dictionary is in the array form.
  have nothing : WellFormed (ImmutableSortedDictionary.array (.ofEntries ([] : List (K × V)))) :=
    .array List.Pairwise.nil (Nat.zero_le _)
  exact nothing

/-- The entries of an unsorted dictionary without equal keys, in either form. -/
theorem fromDictionary_spec {entries : List (K × V)} (distinct : TreeSortedDictionary.DistinctKeys entries) :
    ∃ made, fromDictionary entries = .ok made ∧ WellFormed made ∧ made.contents.Perm entries := by
  rw [fromDictionary]
  -- Few entries are kept as arrays, more as a tree.
  split
  · rename_i few
    obtain ⟨sorted, ordered, strict, permuted⟩ := TreeSortedDictionary.sortedEntries_of_distinct distinct
    refine ⟨.array (.ofEntries sorted), ?_, .array strict (permuted.length_eq ▸ few), ?_⟩
    · rw [ArraySortedDictionary.fromDictionary, ordered]
      rfl
    · rwa [contents_ofEntries]
  · obtain ⟨built, height, made, balanced, strict, permuted⟩ :=
      TreeSortedDictionary.fromDictionary_of_distinct distinct
    refine ⟨.tree built, ?_, .tree balanced strict, permuted⟩
    rw [made]
    rfl

/-- Equal keys are refused, in either form. -/
theorem fromDictionary_of_not_distinct {entries : List (K × V)}
    (repeated : ¬TreeSortedDictionary.DistinctKeys entries) : fromDictionary entries = .error .sameOrdering := by
  -- Both forms sort the entries first, and the sort refuses.
  have refused := TreeSortedDictionary.sortedEntries_of_not_distinct repeated
  rw [fromDictionary]
  split
  · rw [ArraySortedDictionary.fromDictionary, refused]
    rfl
  · rw [TreeSortedDictionary.fromDictionary, refused]
    rfl

/-- Storing a value raises nothing and changes one entry. -/
theorem WellFormed.insertKey (wellFormed : WellFormed dictionary) (key : K) (stored : V) :
    ∃ after, dictionary.insertKey key stored = .ok after ∧ WellFormed after ∧
      after.contents = Entries.put key stored dictionary.contents := by
  cases wellFormed with
  -- A tree stays a tree, with its root coloured black.
  | @tree dictionary height balanced sorted =>
    obtain ⟨after, inserted⟩ := balanced.insertKey_root key stored
    have contents := inorder_insertKey key stored sorted
    refine ⟨_, rfl, .tree inserted ?_, ?_⟩
    · rw [TreeSortedDictionary.insertKey, inorder_withColor, contents]
      exact sorted.put key stored
    · rw [contents_tree, TreeSortedDictionary.insertKey, inorder_withColor, contents]
      rfl
  | @array entries sorted few =>
    rw [contents_ofEntries, ImmutableSortedDictionary.insertKey, ArraySortedDictionary.insertKey]
    cases found : ArraySortedDictionary.findKey key (ArraySortedDictionary.ofEntries entries).keys with
    -- The key is stored already, and its value is replaced in place.
    | some pos =>
      obtain ⟨before, old, after, rfl, rfl⟩ := ArraySortedDictionary.findKey_some found
      refine ⟨.array (.ofEntries (Entries.put key stored (before ++ (key, old) :: after))), ?_,
        .array (sorted.put key stored) ?_, contents_ofEntries _⟩
      · exact congrArg (fun made => Except.ok (ImmutableSortedDictionary.array made))
          (ArraySortedDictionary.set_ofEntries stored sorted)
      · -- As many entries as before.
        rw [Entries.put_append_right stored (ArraySortedDictionary.smaller_before sorted)]
        simpa [Entries.put] using few
    | none =>
      have absent := ArraySortedDictionary.findKey_none sorted found
      have added := Entries.put_perm_of_absent stored absent
      dsimp only
      split
      · -- The array is full, and a tree is built from its entries and the new one.
        rw [ArraySortedDictionary.zip_ofEntries, Entries.drop_of_absent absent]
        have appended : (entries ++ [(key, stored)]).Perm (Entries.put key stored entries) :=
          List.perm_append_comm.trans added.symm
        have distinct : TreeSortedDictionary.DistinctKeys (entries ++ [(key, stored)]) :=
          (appended.map Prod.fst).nodup_iff.mpr
            (List.pairwise_map.mpr ((sorted.put key stored).imp fun before => before.ne))
        obtain ⟨built, height, made, balanced, strict, permuted⟩ :=
          TreeSortedDictionary.fromDictionary_of_distinct distinct
        refine ⟨.tree built, ?_, .tree balanced strict, ?_⟩
        · rw [made]
          rfl
        · exact strict.ext (sorted.put key stored) fun entry => (permuted.trans appended).mem_iff
      · rename_i notFull
        refine ⟨.array (.ofEntries (Entries.put key stored entries)), ?_, .array (sorted.put key stored) ?_,
          contents_ofEntries _⟩
        · exact congrArg (fun made => Except.ok (ImmutableSortedDictionary.array made))
            (ArraySortedDictionary.insertIdx_ofEntries sorted absent stored)
        · rw [added.length_eq, List.length_cons]
          have counted : (ArraySortedDictionary.ofEntries entries).count = entries.length := List.length_map _
          omega

/-- What is stored under a key is what its entry says. -/
theorem WellFormed.get (wellFormed : WellFormed dictionary) (key : K) :
    dictionary.get key = dictionary.contents.lookup key := by
  cases wellFormed with
  -- The tree is searched along its order.
  | tree balanced sorted => exact get_eq_lookup key sorted
  | @array entries sorted few =>
    rw [contents_ofEntries, ImmutableSortedDictionary.get, ArraySortedDictionary.get]
    cases found : ArraySortedDictionary.findKey key (ArraySortedDictionary.ofEntries entries).keys with
    | some pos =>
      obtain ⟨before, old, after, rfl, rfl⟩ := ArraySortedDictionary.findKey_some found
      rw [Entries.lookup_append_right (ArraySortedDictionary.smaller_before sorted)]
      simp [ArraySortedDictionary.ofEntries]
    | none =>
      -- The array is searched from the front and the key does not turn up.
      refine (List.lookup_eq_none_iff.mpr fun entry member => ?_).symm
      exact bne_iff_ne.mpr (ArraySortedDictionary.findKey_none sorted found entry member).symm

/-- The keys that a dictionary contains are those under which something is stored. -/
theorem WellFormed.contains (wellFormed : WellFormed dictionary) (key : K) :
    dictionary.contains key = (dictionary.contents.lookup key).isSome := by
  -- Both questions search for the key in the same way.
  rw [← wellFormed.get key]
  cases wellFormed with
  | tree balanced sorted => rfl
  | @array entries sorted few =>
    rw [ImmutableSortedDictionary.contains, ArraySortedDictionary.contains, ImmutableSortedDictionary.get,
      ArraySortedDictionary.get]
    cases found : ArraySortedDictionary.findKey key (ArraySortedDictionary.ofEntries entries).keys with
    | none => rfl
    | some pos =>
      obtain ⟨before, old, after, rfl, rfl⟩ := ArraySortedDictionary.findKey_some found
      simp [ArraySortedDictionary.ofEntries]

/-- Removing a key removes its entry. -/
theorem WellFormed.removeKey (wellFormed : WellFormed dictionary) (key : K) :
    WellFormed (dictionary.removeKey key) ∧
      (dictionary.removeKey key).contents = Entries.drop key dictionary.contents := by
  -- Whether anything is removed is asked first.
  have read := wellFormed.contains key
  cases wellFormed with
  | @tree dictionary height balanced sorted =>
    rw [ImmutableSortedDictionary.removeKey, TreeSortedDictionary.removeKey]
    rw [ImmutableSortedDictionary.contains] at read
    split
    · obtain ⟨⟨after, removed⟩, contents⟩ := balanced.remove_root sorted key
      refine ⟨.tree removed ?_, ?_⟩
      · rw [inorder_withColor, contents]
        exact sorted.drop key
      · rw [contents_tree, inorder_withColor, contents]
        rfl
    · -- Nothing is stored under the key.
      rename_i missing
      rw [read, contents_tree] at missing
      have absent := List.lookup_eq_none_iff.mp (Option.not_isSome_iff_eq_none.mp missing)
      refine ⟨.tree balanced sorted, (Entries.drop_of_absent fun entry member => ?_).symm⟩
      exact (bne_iff_ne.mp (absent entry member)).symm
  | @array entries sorted few =>
    rw [ImmutableSortedDictionary.removeKey, ArraySortedDictionary.removeKey]
    cases found : ArraySortedDictionary.findKey key (ArraySortedDictionary.ofEntries entries).keys with
    -- The array is left as it is.
    | none =>
      refine ⟨.array sorted few, ?_⟩
      rw [contents_ofEntries, Entries.drop_of_absent (ArraySortedDictionary.findKey_none sorted found)]
    -- One position is left out of both arrays.
    | some pos =>
      obtain ⟨before, old, after, rfl, rfl⟩ := ArraySortedDictionary.findKey_some found
      dsimp only
      rw [ArraySortedDictionary.eraseIdx_ofEntries sorted, contents_ofEntries, contents_ofEntries]
      exact ⟨.array (sorted.drop key) ((List.length_filter_le _ _).trans few), rfl⟩

/-! ### Reading the whole dictionary -/

/-- The number of entries. -/
theorem WellFormed.count (wellFormed : WellFormed dictionary) : dictionary.count = dictionary.contents.length := by
  -- A tree counts its nodes, an array its keys.
  cases wellFormed with
  | tree balanced sorted => exact count_eq_length _
  | array sorted few =>
    rw [contents_ofEntries]
    exact List.length_map _

/-- Whether there is no entry. -/
theorem WellFormed.isEmpty (wellFormed : WellFormed dictionary) :
    dictionary.isEmpty = dictionary.contents.isEmpty := by
  cases wellFormed with
  | @tree dictionary height balanced sorted =>
    rw [contents_tree, ImmutableSortedDictionary.isEmpty]
    -- A root with a value has an entry.
    cases dictionary.root <;> simp [LLRBNode.isEmpty, inorder]
  | @array entries sorted few =>
    rw [contents_ofEntries]
    cases entries <;> rfl

/-- The smallest key is that of the first entry. -/
theorem WellFormed.minKey (wellFormed : WellFormed dictionary) :
    dictionary.minKey = dictionary.contents.head?.map Prod.fst := by
  cases wellFormed with
  -- A tree goes to the left as far as it can.
  | tree balanced sorted =>
    rw [contents_tree, ← min_eq_head?]
    rfl
  | @array entries sorted few =>
    rw [contents_ofEntries]
    exact List.head?_map ..

/-- The greatest key is that of the last entry. -/
theorem WellFormed.maxKey (wellFormed : WellFormed dictionary) :
    dictionary.maxKey = dictionary.contents.getLast?.map Prod.fst := by
  cases wellFormed with
  -- A tree goes to the right as far as it can.
  | tree balanced sorted => exact maxKey_eq_getLast? _
  | @array entries sorted few =>
    rw [contents_ofEntries]
    exact List.getLast?_map ..

end ImmutableSortedDictionary

end CardGuru
